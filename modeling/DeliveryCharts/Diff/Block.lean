/-!
Edit scripts: blocks of lines that two texts share, that only the old text has, or only the new one.
-/

namespace DeliveryCharts.Diff

variable {α : Type}

inductive Change where
  | keep
  | drop
  | add
  deriving DecidableEq, Repr

structure Block (α : Type) where
  change : Change
  lines : List α
  deriving DecidableEq, Repr

abbrev Script (α : Type) := List (Block α)

def Block.isKept (b : Block α) : Bool := b.change = .keep

namespace Script

/-- The lines that a script expects. -/
def old (s : Script α) : List α := s.flatMap fun b ↦ if b.change = .add then [] else b.lines

/-- The lines that a script leaves. -/
def new (s : Script α) : List α := s.flatMap fun b ↦ if b.change = .drop then [] else b.lines

/-- The lines of both texts, unless there are none. -/
def block (change : Change) (lines : List α) : Script α :=
  if lines.isEmpty then [] else [⟨change, lines⟩]

end Script

variable [DecidableEq α]

def commonStart : List α → List α → List α
  | a :: as, b :: bs => if a = b then a :: commonStart as bs else []
  | _, _ => []

def commonEnd (as bs : List α) : List α := (commonStart as.reverse bs.reverse).reverse

theorem commonStart_left (as bs : List α) :
    as = commonStart as bs ++ as.drop (commonStart as bs).length := by
  fun_induction commonStart as bs with
  | case1 a as bs ih => simpa using ih
  | case2 => simp
  | case3 => simp

theorem commonStart_right (as bs : List α) :
    bs = commonStart as bs ++ bs.drop (commonStart as bs).length := by
  fun_induction commonStart as bs with
  | case1 a as bs ih => simpa using ih
  | case2 => simp
  | case3 => simp

end DeliveryCharts.Diff
