/-!
A point on a shortest edit path between two texts, near its middle. Paths of growing cost are
followed from both ends until two of them meet; `x` counts lines of the old text, `y` of the new
one, and a diagonal is known by `x - y`.
-/

namespace DeliveryCharts.Diff

variable {α : Type}

/-- The farthest `x` that has been reached on each diagonal. -/
structure Frontier where
  reach : Array Nat
  offset : Nat

namespace Frontier

def ofSize (n : Nat) : Frontier := ⟨Array.replicate (2 * n + 3) 0, n + 1⟩

def get (f : Frontier) (k : Int) : Nat := f.reach.getD (k + f.offset).toNat 0

def set (f : Frontier) (k : Int) (x : Nat) : Frontier :=
  { f with reach := f.reach.setIfInBounds (k + f.offset).toNat x }

/-- The start of the next piece of the path on a diagonal, with `cost` changes. -/
def step (f : Frontier) (cost : Nat) (k : Int) : Nat :=
  if k = -(cost : Int) ∨ (k ≠ cost ∧ f.get (k - 1) < f.get (k + 1)) then f.get (k + 1)
  else f.get (k - 1) + 1

end Frontier

variable [DecidableEq α]

/-- The number of lines that agree from `x` and `y` on. -/
def runLength (old new : Array α) : Nat → Nat → Nat → Nat
  | 0, _, _ => 0
  | fuel + 1, x, y =>
    match old[x]?, new[y]? with
    | some a, some b => if a = b then runLength old new fuel (x + 1) (y + 1) + 1 else 0
    | _, _ => 0

/-- The diagonals that paths of a cost may end on. -/
def diagonals (cost : Nat) : List Int :=
  (List.range (cost + 1)).map fun i : Nat ↦ (cost : Int) - 2 * (i : Int)

/-- Follows one direction by one more change. The paths meet when `meets` holds of a diagonal and
the lines before both of their ends cover the old text. -/
def advance (old new : Array α) (meets : Int → Bool) (other : Frontier) (cost : Nat) :
    List Int → Frontier → Frontier × Option (Nat × Int)
  | [], f => (f, none)
  | k :: ks, f =>
    let start := f.step cost k
    let y := (start : Int) - k
    let run := if y < 0 then 0 else runLength old new old.size start y.toNat
    let f := f.set k (start + run)
    let delta := (old.size : Int) - new.size
    if meets k && old.size ≤ start + run + other.get (delta - k) then
      (f, some (start, k))
    else advance old new meets other cost ks f

/-- Both directions in turn, with more and more changes. -/
def search (old new backOld backNew : Array α) :
    Nat → Nat → Frontier → Frontier → Option (Nat × Nat)
  | 0, _, _, _ => none
  | fuel + 1, cost, forward, backward =>
    let delta := (old.size : Int) - new.size
    let isOdd := delta % 2 ≠ 0
    let near := fun (bound : Int) (k : Int) ↦ ((k - delta).natAbs : Int) ≤ bound
    match advance old new (fun k ↦ isOdd && near (cost - 1) k) backward cost (diagonals cost)
        forward with
    | (_, some (x, k)) => some (x, ((x : Int) - k).toNat)
    | (forward, none) =>
      match advance backOld backNew (fun k ↦ !isOdd && near cost k) forward cost
          (diagonals cost) backward with
      | (backward, some (_, k)) =>
        let x := backward.get k
        some (old.size - x, (new.size - ((x : Int) - k)).toNat)
      | (backward, none) => search old new backOld backNew fuel (cost + 1) forward backward

/-- Where to cut two texts that start differently and end differently. -/
def middle? (old new : List α) : Option (Nat × Nat) :=
  let size := (old.length + new.length + 1) / 2 + 1
  search old.toArray new.toArray old.reverse.toArray new.reverse.toArray size 0
    (.ofSize size) (.ofSize size)

end DeliveryCharts.Diff
