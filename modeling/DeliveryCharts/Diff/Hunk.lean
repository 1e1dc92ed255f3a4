import DeliveryCharts.Diff.Compact

/-!
The changes between two texts, in hunks: changed lines with some of the lines around them.
-/

namespace DeliveryCharts.Diff

/-- The lines of a text with their breaks: a line feed, a carriage return, or both. -/
def splitLines : List Char → List (List Char)
  | [] => []
  | '\r' :: '\n' :: cs => ['\r', '\n'] :: splitLines cs
  | c :: cs =>
    if c = '\n' ∨ c = '\r' then [c] :: splitLines cs
    else
      match splitLines cs with
      | [] => [[c]]
      | l :: ls => (c :: l) :: ls

/-- A line as it is shown: without a final line feed. -/
def shown (line : List Char) : String :=
  .ofList (line.reverse.dropWhile (· = '\n')).reverse

structure Line where
  change : Change
  content : String
  deriving DecidableEq, Repr

abbrev Hunk := List Line

end DeliveryCharts.Diff

namespace DeliveryCharts

open Diff

/-- The hunks, with the numbers of added and dropped lines. -/
structure Diff where
  hunks : List Hunk := []
  additions : Nat := 0
  deletions : Nat := 0
  deriving DecidableEq, Repr

namespace Diff

/-- Blocks from here on, the block before having been a change. Kept lines that are more than the
lines around two changes end a hunk and start the next. -/
def hunksFrom (context : Nat) : List (Block (List Char)) → Script (List Char) →
    List (Script (List Char))
  | pending, [] => if pending.all Block.isKept then [] else [pending]
  | pending, b :: rest =>
    if b.change = .keep ∧ 2 * context < b.lines.length then
      (pending ++ [{ b with lines := b.lines.take context }]) ::
        hunksFrom context [{ b with lines := b.lines.drop (b.lines.length - context) }] rest
    else hunksFrom context (pending ++ [b]) rest

/-- Kept lines at the start of the script: only the last of them. -/
def trimStart (context : Nat) : Script (List Char) → Script (List Char)
  | [] => []
  | b :: rest =>
    if b.change = .keep then { b with lines := b.lines.drop (b.lines.length - context) } :: rest
    else b :: rest

/-- Kept lines at the end of the script: only the first of them. -/
def trimEnd (context : Nat) (s : Script (List Char)) : Script (List Char) :=
  match s.reverse with
  | [] => []
  | b :: rest =>
    (if b.change = .keep then { b with lines := b.lines.take context } :: rest
      else b :: rest).reverse

def hunkOf (s : Script (List Char)) : Hunk :=
  s.flatMap fun b ↦ b.lines.map fun l ↦ ⟨b.change, shown l⟩

/-- One more line, which is counted where it is a change. -/
def tally (d : Diff) (l : Line) : Diff :=
  match l.change with
  | .keep => d
  | .drop => { d with deletions := d.deletions + 1 }
  | .add => { d with additions := d.additions + 1 }

/-- One more hunk. -/
def push (d : Diff) (h : Hunk) : Diff :=
  let d := h.foldl tally d
  { d with hunks := d.hunks ++ [h] }

/-- Changes with `context` kept lines around each. -/
def ofTexts (context : Nat) (old new : String) : Diff :=
  let s := script (splitLines old.toList) (splitLines new.toList)
  ((hunksFrom context [] (trimEnd context (trimStart context s))).map hunkOf).foldl push {}

def isEmpty (d : Diff) : Bool := d.additions == 0 && d.deletions == 0

def Line.text (l : Line) : String :=
  match l.change with
  | .keep => " " ++ l.content
  | .drop => "-" ++ l.content
  | .add => "+" ++ l.content

/-- Lines with their marks; between two hunks a line that says so. -/
def lines (d : Diff) : List String :=
  match d.hunks.map fun h ↦ h.map Line.text with
  | [] => []
  | h :: hs => h ++ hs.flatMap fun h ↦ "@@" :: h

def text (d : Diff) : String := String.join (d.lines.map (· ++ "\n"))

end Diff

end DeliveryCharts
