import DeliveryCharts.Json.Fault
import DeliveryCharts.Text.Blank
import DeliveryCharts.Text.Lines

/-!
Weakly typed fields. Manifests are written by hand and often from templates, so a scalar of another
kind is accepted where it says the same: `"30"` for 30, `1` for true, a scalar for a list of one.
-/

namespace DeliveryCharts.Coerce

open Json (Fault)

def scalarText? : Json → Option String
  | .null => some ""
  | .str s => some s
  | .bool b => some (.ofList (Json.boolText b))
  | .num n => some (.ofList (Json.numberText n))
  | .arr _ => none
  | .obj _ => none

/-- An integer of 64 bits in decimal, perhaps with a sign. -/
def readInt64? (cs : List Char) : Option Int := (Text.readInt? 10 cs).filter (Width.signed 64)

/-- Whole numbers beyond 64 bits become the nearest integer of 64 bits. -/
def scalarInt? : Json → Option Int
  | .num (.int z) => some (Width.clamp 64 z)
  | .num (.float x) => x.toInt?.map (Width.clamp 64)
  | .str s => readInt64? (Text.trimChars s.toList)
  | .bool b => some (if b then 1 else 0)
  | _ => none

def readBool? (cs : List Char) : Option Bool :=
  let word := String.ofList (Text.asciiLower (Text.trimChars cs))
  if word = "true" ∨ word = "1" then some true
  else if word = "false" ∨ word = "0" ∨ word = "" then some false
  else none

def scalarBool? : Json → Option Bool
  | .null => some false
  | .bool b => some b
  | .num (.int z) => if Width.signed 64 z then some (z != 0) else none
  | .str s => readBool? s.toList
  | _ => none

def orFault (wanted : String) (v : Json) : Option α → Except Fault α
  | some a => .ok a
  | none => .error (.notCoercible wanted v)

def string (v : Json) : Except Fault String := orFault "a string" v (scalarText? v)

/-- An empty string is no value. -/
def optString (v : Json) : Except Fault (Option String) :=
  (string v).map fun s ↦ if s.isEmpty then none else some s

def int (v : Json) : Except Fault Int :=
  if v.isNull then .ok 0 else orFault "an integer" v (scalarInt? v)

def isBlankText : Json → Bool
  | .str s => s.toList.all Text.isBlank
  | _ => false

/-- A blank string is no value. -/
def optInt (v : Json) : Except Fault (Option Int) :=
  if v.isNull || isBlankText v then .ok none
  else (orFault "an integer" v (scalarInt? v)).map some

def boolean (v : Json) : Except Fault Bool := orFault "a boolean" v (scalarBool? v)

def optBool (v : Json) : Except Fault (Option Bool) :=
  if v.isNull then .ok none else (boolean v).map some

def stringList : Json → Except Fault (List String)
  | .null => .ok []
  | .arr vs => vs.mapM fun v ↦ orFault "a string list item" v (scalarText? v)
  | v => (orFault "a string list" v (scalarText? v)).map ([·])

def intList : Json → Except Fault (List Int)
  | .null => .ok []
  | .arr vs => vs.mapM fun v ↦ orFault "an integer list item" v (scalarInt? v)
  | v => (orFault "an integer list" v (scalarInt? v)).map ([·])

end DeliveryCharts.Coerce
