/-!
Cutting a text at characters and at words, and putting the pieces together again.
-/

namespace DeliveryCharts.Text

/-- The pieces between the characters `p` holds of: always at least one, possibly empty. -/
def splitAll (p : Char → Bool) : List Char → List (List Char)
  | [] => [[]]
  | c :: cs =>
    if p c then [] :: splitAll p cs
    else
      match splitAll p cs with
      | [] => [[c]]
      | l :: ls => (c :: l) :: ls

theorem splitAll_ne_nil (p : Char → Bool) (cs : List Char) : splitAll p cs ≠ [] := by
  cases cs with
  | nil => simp [splitAll]
  | cons c cs =>
    rw [splitAll]
    split
    · simp
    · split <;> simp

/-- Pieces that each end right after a line feed, the last one perhaps without; no empty piece. -/
def splitAfterFeeds : List Char → List (List Char)
  | [] => []
  | c :: cs =>
    if c = '\n' then [c] :: splitAfterFeeds cs
    else
      match splitAfterFeeds cs with
      | [] => [[c]]
      | l :: ls => (c :: l) :: ls

theorem flatten_splitAfterFeeds (cs : List Char) : (splitAfterFeeds cs).flatten = cs := by
  induction cs with
  | nil => rfl
  | cons c cs ih =>
    rw [splitAfterFeeds]
    split
    · simp [ih]
    · split <;> simp_all

/-- A line without its terminator, a line feed with perhaps a carriage return before it. -/
def dropTerminator (line : List Char) : List Char :=
  match line.reverse with
  | '\n' :: '\r' :: r => r.reverse
  | '\n' :: r => r.reverse
  | _ => line

/-- The lines of a text without their terminators. -/
def lines (cs : List Char) : List (List Char) := (splitAfterFeeds cs).map dropTerminator

/-- What follows the word `w` at the head of the text. -/
def dropWord? : List Char → List Char → Option (List Char)
  | [], cs => some cs
  | _ :: _, [] => none
  | w :: ws, c :: cs => if w = c then dropWord? ws cs else none

theorem dropWord?_eq_some_iff {w cs rest : List Char} :
    dropWord? w cs = some rest ↔ cs = w ++ rest := by
  induction w generalizing cs with
  | nil => simp [dropWord?, eq_comm]
  | cons a w ih =>
    cases cs with
    | nil => simp [dropWord?]
    | cons c cs =>
      by_cases h : a = c
      · simp [dropWord?, h, ih]
      · simp [dropWord?, h, Ne.symm h]

def startsWith (cs w : List Char) : Bool := (dropWord? w cs).isSome

def endsWith (cs w : List Char) : Bool := startsWith cs.reverse w.reverse

/-- The word occurs somewhere in the text. -/
def occurs (w : List Char) : List Char → Bool
  | [] => w.isEmpty
  | c :: cs => startsWith (c :: cs) w || occurs w cs

/-- The text before the first occurrence of the word, and the text after it. -/
def splitOnce? (w : List Char) : List Char → Option (List Char × List Char)
  | [] => if w.isEmpty then some ([], []) else none
  | c :: cs =>
    match dropWord? w (c :: cs) with
    | some rest => some ([], rest)
    | none => (splitOnce? w cs).map fun p ↦ (c :: p.1, p.2)

/-- Every occurrence of a non-empty word, from the left, is replaced. -/
def replaceFrom (w new : List Char) : Nat → List Char → List Char
  | 0, cs => cs
  | fuel + 1, cs =>
    match splitOnce? w cs with
    | none => cs
    | some (before, rest) => before ++ new ++ replaceFrom w new fuel rest

/-- An empty word occurs before each character and at the end. -/
def replace (w new cs : List Char) : List Char :=
  if w.isEmpty then new ++ cs.flatMap fun c ↦ c :: new
  else replaceFrom w new (cs.length + 1) cs

/-- The pieces between the occurrences of a non-empty word, at most `limit` cuts from the left. -/
def splitWord (w : List Char) : Nat → List Char → List (List Char)
  | 0, cs => [cs]
  | limit + 1, cs =>
    match splitOnce? w cs with
    | none => [cs]
    | some (before, rest) => before :: splitWord w limit rest

/-- The pieces with the separator between neighbours. -/
def join (sep : List Char) : List (List Char) → List Char
  | [] => []
  | [l] => l
  | l :: ls => l ++ sep ++ join sep ls

def joinStrings (sep : String) (l : List String) : String :=
  .ofList (join sep.toList (l.map String.toList))

/-- The index of the first character that `p` holds of. -/
def indexOf? (p : Char → Bool) : List Char → Option Nat
  | [] => none
  | c :: cs => if p c then some 0 else (indexOf? p cs).map (· + 1)

/-- ASCII letters only. -/
def asciiLower (cs : List Char) : List Char :=
  cs.map fun c ↦ if 'A' ≤ c ∧ c ≤ 'Z' then Char.ofNat (c.toNat + 32) else c

def isAsciiAlnum (c : Char) : Bool :=
  ('a' ≤ c && c ≤ 'z') || ('A' ≤ c && c ≤ 'Z') || ('0' ≤ c && c ≤ '9')

end DeliveryCharts.Text
