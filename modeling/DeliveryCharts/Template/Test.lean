import DeliveryCharts.Template.Take
import DeliveryCharts.Text.Casing

/-!
The tests of expressions with `is`.
-/

namespace DeliveryCharts.Template.Test

open Decimal (Binary64)

/-- An integer as far as 128 bits hold it. -/
def int128? : Value → Option Int
  | .float x => x.toInt?.filter Value.isInt128
  | v => v.int?.filter Value.isInt128

def hasParity (v : Value) (rest : Int) : Bool := (int128? v).any (· % 2 == rest)

def isDivisible (v w : Value) : Bool :=
  match Value.operands? v w with
  | some (.ints a b) => b != 0 && a.tmod b == 0
  | some (.floats x y) => (x.remainder y).isZero
  | _ => false

/-- A small letter has no other small form, a capital has one. -/
def isSmall (c : Char) : Bool := Text.isCased c && Text.lowerChar c == [c]

def isCapital (c : Char) : Bool :=
  Text.isCased c && Text.lowerChar c != [c] && Text.upperChar c == [c]

def isSafe : Value → Bool
  | .text _ safe => safe
  | _ => false

def isFloat : Value → Bool
  | .float _ => true
  | _ => false

def isInt : Value → Bool
  | .int _ => true
  | _ => false

def isBool (b : Bool) : Value → Bool
  | .bool c => b == c
  | _ => false

def isIn (v container : Value) : Bool :=
  match Value.contains container v with
  | .ok found => found
  | .error _ => false

def isSame (v w : Value) : Bool := isInt v == isInt w && v.equal w

/-- The test of one value. -/
def single (p : Value → Bool) : Take Bool := do return p (← Take.value)

def pair (p : Value → Value → Bool) : Take Bool := do
  let v ← Take.value
  return p v (← Take.value)

def texts (p : List Char → List Char → Bool) : Take Bool := do
  let s ← Take.text
  return p s.toList (← Take.text).toList

/-- The tests that need nothing but the value and their arguments. -/
def table (name : String) : Option (Take Bool) :=
  match name with
  | "undefined" => some (single Value.isUndefined)
  | "defined" => some (single fun v ↦ !v.isUndefined)
  | "none" => some (single Value.isNone)
  | "safe" => some (single isSafe)
  | "escaped" => some (single isSafe)
  | "odd" => some (single (hasParity · 1))
  | "even" => some (single (hasParity · 0))
  | "divisibleby" => some (pair isDivisible)
  | "number" => some (single fun v ↦ v.kind = .number)
  | "integer" => some (single isInt)
  | "int" => some (single isInt)
  | "float" => some (single isFloat)
  | "string" => some (single fun v ↦ v.kind = .string)
  | "sequence" => some (single fun v ↦ v.kind = .sequence)
  | "iterable" => some (single fun v ↦ v.iterate?.isSome)
  | "mapping" => some (single fun v ↦ v.kind = .map)
  | "boolean" => some (single fun v ↦ v.kind = .bool)
  | "true" => some (single (isBool true))
  | "false" => some (single (isBool false))
  | "lower" => some do return (← Take.text).toList.all isSmall
  | "upper" => some do return (← Take.text).toList.all isCapital
  | "startingwith" => some (texts Text.startsWith)
  | "endingwith" => some (texts Text.endsWith)
  | "sameas" => some (pair isSame)
  | "in" => some (pair isIn)
  | name => compared name
where
  compared (name : String) : Option (Take Bool) :=
    if ["eq", "equalto", "=="].contains name then some (pair Value.equal)
    else if ["ne", "!="].contains name then some (pair fun v w ↦ !v.equal w)
    else if ["lt", "lessthan", "<"].contains name then some (pair fun v w ↦ (v.compare w).isLT)
    else if ["le", "<="].contains name then some (pair fun v w ↦ (v.compare w).isLE)
    else if ["gt", "greaterthan", ">"].contains name then some (pair fun v w ↦ (v.compare w).isGT)
    else if ["ge", ">="].contains name then some (pair fun v w ↦ (v.compare w).isGE)
    else none

/-- Whether the test holds of the first argument. -/
def apply (mode : Mode) (name : String) (args : List Value) : Except Fault Bool :=
  match table name with
  | some t => Take.all mode args t
  | none => .error ⟨.unknownTest, some s!"test {name} is unknown", none⟩

end DeliveryCharts.Template.Test
