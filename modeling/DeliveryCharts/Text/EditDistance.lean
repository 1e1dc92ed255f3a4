/-!
The distance of two texts: how many characters have to be inserted, removed or replaced to get from
one to the other.
-/

namespace DeliveryCharts.Text

/-- The distances of the next prefix, given those of the last one and the first of the new ones. -/
def nextDistances (a : Char) : List Char → List Nat → Nat → List Nat
  | b :: bs, diagonal :: above :: row, left =>
    let d := min (min (above + 1) (left + 1)) (if a = b then diagonal else diagonal + 1)
    d :: nextDistances a bs (above :: row) d
  | _, _, _ => []

/-- The distances of `as` from each prefix of `bs`, continuing from those of what precedes `as`. -/
def distances (bs : List Char) : List Char → Nat → List Nat → List Nat
  | [], _, row => row
  | a :: as, n, row => distances bs as (n + 1) ((n + 1) :: nextDistances a bs row (n + 1))

def editDistance (as bs : List Char) : Nat :=
  ((distances bs as 0 (List.range (bs.length + 1))).getLast?).getD 0

end DeliveryCharts.Text
