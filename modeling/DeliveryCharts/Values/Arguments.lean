import DeliveryCharts.Json.Reader
import DeliveryCharts.Values.Basic

/-!
Values given on the command line, each as `path=value`.
-/

namespace DeliveryCharts.Values

open Decimal (Binary64)

/-- A number in decimal: an integer of 64 bits, or else a finite floating point number. -/
def readNumber? (cs : List Char) : Option Number :=
  match Coerce.readInt64? cs with
  | some z => some (.int z)
  | none => ((Decimal.readDecimal? cs).filter Binary64.isFinite).map .float

/-- A word, a number, a list or an object of JSON; anything else is a text. -/
def readArgument (s : String) : Json :=
  if s = "true" then .bool true
  else if s = "false" then .bool false
  else if s = "null" then .null
  else
    match readNumber? s.toList with
    | some n => .num n
    | none =>
      if s.toList.head? = some '[' ∨ s.toList.head? = some '\x7b' then
        match Json.parse s with
        | .ok v => v
        | .error _ => .str s
      else .str s

/-- Sets what one argument says. -/
def setArgument (values : Values) (argument : String) : Except Error Values :=
  match Text.splitOnce? ['='] argument.toList with
  | some (key, value) =>
    values.set (.ofList (Text.trimChars key)) (readArgument (.ofList value))
  | none =>
    .error (.valuesMerge s!"Invalid --set format: '{argument}'. Expected key=value")

/-- The arguments from left to right, starting from no values. -/
def ofArguments (arguments : List String) : Except Error Values :=
  arguments.foldlM setArgument empty

end DeliveryCharts.Values
