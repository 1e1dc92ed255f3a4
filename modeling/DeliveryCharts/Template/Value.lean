import DeliveryCharts.Json.Printer
import DeliveryCharts.Template.Fault
import DeliveryCharts.Text.Printable

/-!
The values that templates compute with, their text, and their way from and to JSON.
-/

namespace DeliveryCharts

open Decimal (Binary64)

/-- Positional from three zeros after the point up to sixteen digits before it. -/
def Decimal.Style.inCollection : Decimal.Style := ⟨fun point ↦ -4 < point ∧ point ≤ 16, false⟩

namespace Template

/-- Kinds in the order in which values of different kinds are sorted. -/
inductive Kind where
  | undefined
  | none
  | bool
  | number
  | string
  | sequence
  | map
  | iterable
  | plain
  deriving DecidableEq, Repr

def Kind.name : Kind → String
  | undefined => "undefined"
  | none => "none"
  | bool => "bool"
  | number => "number"
  | string => "string"
  | sequence => "sequence"
  | map => "map"
  | iterable => "iterable"
  | plain => "plain object"

def Kind.rank : Kind → Nat
  | undefined => 0
  | none => 1
  | bool => 2
  | number => 3
  | string => 4
  | sequence => 5
  | map => 6
  | iterable => 7
  | plain => 8

/-- What a template can hold but not write down. A record is a `namespace`, a procedure a `macro`;
they and the loops stand in the state of a rendering under their numbers. -/
inductive Handle where
  | record (id : Nat)
  | loop (id : Nat) (label : String)
  | procedure (id : Nat) (name : String)
  | function (name : String)
  deriving DecidableEq, Repr

def Handle.label : Handle → String
  | record _ => "{}"
  | loop _ label => label
  | procedure _ name => s!"<macro {name}>"
  | function name => name

/-- A silent undefined value is written as nothing even where undefined values are faults. A lazy
list is the outcome of a computation. The entries of a map stand in the order of their keys; named
maps are made of the named arguments of a call. -/
inductive Value where
  | undefined (silent : Bool)
  | none
  | bool (b : Bool)
  | int (z : Int)
  | float (x : Binary64)
  | text (s : String) (safe : Bool)
  | list (items : List Value) (lazy : Bool)
  | map (entries : List (Value × Value)) (named : Bool)
  | handle (h : Handle)
  deriving Inhabited

namespace Value

def missing : Value := undefined false

def ofString (s : String) : Value := text s false

def ofList (items : List Value) : Value := list items false

def ofNat (n : Nat) : Value := int n

def kind : Value → Kind
  | undefined _ => .undefined
  | none => .none
  | bool _ => .bool
  | int _ => .number
  | float _ => .number
  | text _ _ => .string
  | list _ false => .sequence
  | list _ true => .iterable
  | map _ _ => .map
  | handle (.record _) => .map
  | handle (.loop _ _) => .map
  | handle _ => .plain

def isUndefined : Value → Bool
  | undefined _ => true
  | _ => false

def isNone : Value → Bool
  | none => true
  | _ => false

def str? : Value → Option String
  | text s _ => some s
  | _ => Option.none

/-- The values that count as true in a condition. -/
def truth : Value → Bool
  | undefined _ => false
  | none => false
  | bool b => b
  | int z => z != 0
  | float x => !x.isZero
  | text s _ => !s.isEmpty
  | list items _ => !items.isEmpty
  | map entries _ => !entries.isEmpty
  | handle _ => true

def length? : Value → Option Nat
  | text s _ => some s.length
  | list items _ => some items.length
  | map entries _ => some entries.length
  | _ => Option.none

/-! The text of a value. -/

def floatText (style : Decimal.Style) (x : Binary64) : String :=
  if x.isNaN then "NaN"
  else if !x.isFinite then if x.sign then "-inf" else "inf"
  else .ofList (Decimal.render style x)

def boolText (b : Bool) : String := if b then "True" else "False"

mutual

/-- The text inside of a collection, where strings are quoted. -/
def inner : Value → String
  | undefined _ => "undefined"
  | none => "None"
  | bool b => boolText b
  | int z => Text.ofInt z
  | float x => floatText .inCollection x
  | text s _ => Text.debugString s
  | list items _ => "[" ++ innerItems items ++ "]"
  | map entries _ => "\x7b" ++ innerEntries entries ++ "\x7d"
  | handle h => h.label

def innerItems : List Value → String
  | [] => ""
  | [v] => inner v
  | v :: vs => inner v ++ ", " ++ innerItems vs

def innerEntries : List (Value × Value) → String
  | [] => ""
  | [(k, v)] => inner k ++ ": " ++ inner v
  | (k, v) :: es => inner k ++ ": " ++ inner v ++ ", " ++ innerEntries es

end

def toText : Value → String
  | undefined _ => ""
  | float x => floatText .positional x
  | text s _ => s
  | v => inner v

/-! JSON. -/

mutual

def ofJson : Json → Value
  | .null => none
  | .bool b => bool b
  | .num (.int z) => int z
  | .num (.float x) => float x
  | .str s => ofString s
  | .arr vs => list (ofItems vs) false
  | .obj ms => map (ofMembers ms) false

def ofItems : List Json → List Value
  | [] => []
  | v :: vs => ofJson v :: ofItems vs

def ofMembers : List (String × Json) → List (Value × Value)
  | [] => []
  | (k, v) :: ms => (ofString k, ofJson v) :: ofMembers ms

end

/-- The range of JSON's integers. -/
def isJsonInt (z : Int) : Bool := Width.signed 64 z || Width.unsigned 64 z

/-- The key under which a member stands in a JSON object. -/
def memberKey : Value → Except Fault String
  | text s _ => .ok s
  | int z => .ok (Text.ofInt z)
  | bool b => .ok (if b then "true" else "false")
  | float x =>
    if x.isFinite then .ok (.ofList (Decimal.render .json x))
    else .error (.invalid "float key must be finite (got NaN or +/-inf)")
  | handle (.procedure _ name) => .ok (Handle.procedure 0 name).label
  | handle (.function name) => .ok name
  | _ => .error (.invalid "key must be a string")

mutual

/-- Undefined values and numbers that are not finite become null. -/
def toJson : Value → Except Fault Json
  | undefined _ => .ok .null
  | none => .ok .null
  | bool b => .ok (.bool b)
  | int z => if isJsonInt z then .ok (.num (.int z)) else .error (.invalid "number out of range")
  | float x => .ok (if x.isFinite then .num (.float x) else .null)
  | text s _ => .ok (.str s)
  | list items _ => (toItems items).map .arr
  | map entries _ => (toMembers [] entries).map .obj
  | handle h => .ok (.str h.label)

def toItems : List Value → Except Fault (List Json)
  | [] => .ok []
  | v :: vs => do
    let j ← toJson v
    return j :: (← toItems vs)

def toMembers (members : Members) : List (Value × Value) → Except Fault Members
  | [] => .ok members
  | (k, v) :: es => do
    let key ← memberKey k
    let j ← toJson v
    toMembers (members.insert key j) es

end

end Value

end Template

end DeliveryCharts
