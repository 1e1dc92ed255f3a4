import DeliveryCharts.Diff.Block
import DeliveryCharts.Diff.Middle

/-!
The edit script between two texts: what they share at both ends is kept, and what is between is cut
near the middle of a shortest path.
-/

namespace DeliveryCharts.Diff

variable {α : Type} [DecidableEq α]

def between : Nat → List α → List α → Script α
  | 0, old, new => .block .drop old ++ .block .add new
  | fuel + 1, old, new =>
    let start := commonStart old new
    let old := old.drop start.length
    let new := new.drop start.length
    let ending := commonEnd old new
    let old := old.take (old.length - ending.length)
    let new := new.take (new.length - ending.length)
    let inner : Script α :=
      if old.isEmpty || new.isEmpty then .block .drop old ++ .block .add new
      else
        match middle? old new with
        | some (x, y) =>
          between fuel (old.take x) (new.take y) ++ between fuel (old.drop x) (new.drop y)
        | none => .block .drop old ++ .block .add new
    .block .keep start ++ inner ++ .block .keep ending

/-- The script as it is found, before neighbouring changes are brought together. -/
def rawScript (old new : List α) : Script α := between (old.length + new.length + 1) old new

end DeliveryCharts.Diff
