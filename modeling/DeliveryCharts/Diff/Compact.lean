import DeliveryCharts.Diff.Script

/-!
Bringing the changes of a script together. An added block moves over the kept lines beside it as
long as it says the same there, and blocks of one kind that meet become one.
-/

namespace DeliveryCharts.Diff

variable {α : Type}

/-- A script with one block picked out; the blocks before it stand in reverse. -/
structure Focus (α : Type) where
  before : Script α
  block : Block α
  after : Script α

namespace Focus

def script (f : Focus α) : Script α := f.before.reverse ++ f.block :: f.after

/-- Kept lines put in front of the rest of a script. -/
def keepFirst (lines : List α) : Script α → Script α
  | ⟨.keep, ls⟩ :: rest => ⟨.keep, lines ++ ls⟩ :: rest
  | rest => ⟨.keep, lines⟩ :: rest

/-- Kept lines put behind the reversed start of a script. -/
def keepLast (lines : List α) : Script α → Script α
  | ⟨.keep, ls⟩ :: rest => ⟨.keep, ls ++ lines⟩ :: rest
  | rest => ⟨.keep, lines⟩ :: rest

/-- The block, and the rest of the script that it is put in front of unless it is empty. -/
def unlessEmpty (b : Block α) (rest : Script α) : Script α :=
  if b.lines.isEmpty then rest else b :: rest

variable [DecidableEq α]

/-- One move towards the start. -/
def up? (f : Focus α) : Option (Focus α) :=
  match f.before with
  | [] => none
  | prev :: before =>
    if prev.change = .keep then
      let shared := if f.block.change = .add then commonEnd prev.lines f.block.lines else []
      if shared.isEmpty then if prev.lines.isEmpty then some { f with before } else none
      else
        let n := shared.length
        let kept := { prev with lines := prev.lines.take (prev.lines.length - n) }
        some {
          before := unlessEmpty kept before
          block := { f.block with
            lines := shared ++ f.block.lines.take (f.block.lines.length - n) }
          after := keepFirst shared f.after }
    else if prev.change = f.block.change then
      some { f with before, block := { prev with lines := prev.lines ++ f.block.lines } }
    else some { f with before, after := prev :: f.after }

/-- One move towards the end. -/
def down? (f : Focus α) : Option (Focus α) :=
  match f.after with
  | [] => none
  | next :: after =>
    if next.change = .keep then
      let shared := if f.block.change = .add then commonStart next.lines f.block.lines else []
      if shared.isEmpty then if next.lines.isEmpty then some { f with after } else none
      else
        let n := shared.length
        some {
          before := keepLast shared f.before
          block := { f.block with lines := f.block.lines.drop n ++ shared }
          after := unlessEmpty { next with lines := next.lines.drop n } after }
    else if next.change = f.block.change then
      some { f with block := { f.block with lines := f.block.lines ++ next.lines }, after }
    else some { f with before := next :: f.before, after }

def moveAll (move : Focus α → Option (Focus α)) : Nat → Focus α → Focus α
  | 0, f => f
  | fuel + 1, f =>
    match move f with
    | some f => moveAll move fuel f
    | none => f

end Focus

variable [DecidableEq α]

/-- Settles every block of one kind, from the start of the script to its end. -/
def settle (change : Change) (moves : Nat) : Nat → Script α → Script α → Script α
  | 0, before, rest => before.reverse ++ rest
  | _, before, [] => before.reverse
  | fuel + 1, before, b :: rest =>
    if b.change = change then
      let f := Focus.moveAll Focus.up? moves ⟨before, b, rest⟩
      let f := Focus.moveAll Focus.down? moves f
      settle change moves fuel (f.block :: f.before) f.after
    else settle change moves fuel (b :: before) rest

/-- Between kept lines, all dropped lines and then all added lines. -/
def gather (s : Script α) : Script α := go [] [] [] s
where
  flush (keeps drops adds : List α) : Script α :=
    .block .keep keeps ++ .block .drop drops ++ .block .add adds
  go (keeps drops adds : List α) : Script α → Script α
    | [] => flush keeps drops adds
    | ⟨.keep, ls⟩ :: rest =>
      if drops.isEmpty && adds.isEmpty then go (keeps ++ ls) [] [] rest
      else flush keeps drops adds ++ go ls [] [] rest
    | ⟨.drop, ls⟩ :: rest => go keeps (drops ++ ls) adds rest
    | ⟨.add, ls⟩ :: rest => go keeps drops (adds ++ ls) rest

/-- The script between two texts: kept lines, dropped lines and added lines take turns. -/
def script (old new : List α) : Script α :=
  let size := old.length + new.length + 2
  let steps := size * size
  let s := settle .drop steps steps [] (rawScript old new)
  gather (settle .add steps steps [] s)

end DeliveryCharts.Diff
