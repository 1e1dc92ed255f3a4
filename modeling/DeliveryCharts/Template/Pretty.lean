import DeliveryCharts.Template.Value

/-!
The text of a value over several lines, every item of a collection on lines of its own.
-/

namespace DeliveryCharts.Template.Value

def tabs (depth : Nat) : String := .ofList (List.replicate (4 * depth) ' ')

mutual

/-- Lines but the first one stand `depth` steps in. -/
def pretty (depth : Nat) : Value → String
  | list [] _ => "[]"
  | list items _ => "[\n" ++ prettyItems (depth + 1) items ++ tabs depth ++ "]"
  | map [] _ => "\x7b\x7d"
  | map entries _ => "\x7b\n" ++ prettyEntries (depth + 1) entries ++ tabs depth ++ "\x7d"
  | v => v.inner

def prettyItems (depth : Nat) : List Value → String
  | [] => ""
  | v :: vs => tabs depth ++ pretty depth v ++ ",\n" ++ prettyItems depth vs

def prettyEntries (depth : Nat) : List (Value × Value) → String
  | [] => ""
  | (k, v) :: es =>
    tabs depth ++ pretty depth k ++ ": " ++ pretty depth v ++ ",\n" ++ prettyEntries depth es

end

end DeliveryCharts.Template.Value
