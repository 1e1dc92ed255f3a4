import DeliveryCharts.Json.Fault

/-!
Records in JSON: an object whose members are named after the fields, or a list of the fields in the
order of their declaration. Absent fields have a default, members that name no field are ignored.

An object is decoded in the order of its keys, so a decoder asks for its fields in that order and
the first fault of the object is the one that is reported.
-/

namespace DeliveryCharts.Record

open Json (Fault Found)

def field (ms : Members) (name : String) (default : α) (read : Json → Except Fault α) :
    Except Fault α :=
  match ms.get? name with
  | none => .ok default
  | some v => read v

/-- The field under its second spelling, where the first may have given a value already. -/
def eitherField (ms : Members) (name second : String) (given : α) (read : Json → Except Fault α) :
    Except Fault α :=
  match ms.get? second with
  | none => .ok given
  | some v => if ms.contains name then .error (.duplicateField name) else read v

def mismatch (v : Json) (expected : String) : Fault := .invalidType (.ofJson v) expected

def optional (read : Json → Except Fault α) : Json → Except Fault (Option α)
  | .null => .ok none
  | v => (read v).map some

def list (read : Json → Except Fault α) : Json → Except Fault (List α)
  | .arr vs => vs.mapM read
  | v => .error (mismatch v "a sequence")

/-- A list, or null for the empty list. -/
def nullableList (read : Json → Except Fault α) : Json → Except Fault (List α)
  | .null => .ok []
  | v => list read v

def map : Json → Except Fault Members
  | .obj ms => .ok ms
  | v => .error (mismatch v "a map")

/-- How a list with too many fields is described: as a list of a document, or as a sequence whose
items have been counted. -/
inductive Origin where
  | document
  | buffer
  deriving DecidableEq

def Origin.tooLong (o : Origin) (length fields : Nat) : Fault :=
  match o with
  | document => .invalidLength length "fewer elements in array"
  | buffer =>
    .invalidLength length (if fields = 1 then "1 element in sequence"
      else Text.ofNat fields ++ " elements in sequence")

/-- The fields are given one by one, so the first that fails is the one that is reported. -/
def positional (decode : Members → Except Fault α) (given : List (String × Json)) :
    Except Fault α := do
  (List.range given.length).forM fun n ↦ discard (decode (Members.ofList (given.take n)))
  decode (Members.ofList given)

def read (origin : Origin) (typeName : String) (fields : List String)
    (decode : Members → Except Fault α) : Json → Except Fault α
  | .obj ms => decode ms
  | .arr vs => do
    let a ← positional decode (fields.zip vs)
    if vs.length > fields.length then .error (origin.tooLong vs.length fields.length) else .ok a
  | v => .error (mismatch v ("struct " ++ typeName))

/-! Members of a record that is written: always, if there is a value, if there is an item, or if a
flag is set. -/

def present (name : String) (write : α → Json) : Option α → List (String × Json)
  | none => []
  | some a => [(name, write a)]

def items (name : String) (write : α → Json) (as : List α) : List (String × Json) :=
  if as.isEmpty then [] else [(name, .arr (as.map write))]

def members (name : String) (ms : Members) : List (String × Json) :=
  if ms.isEmpty then [] else [(name, .obj ms)]

def flag (name : String) (b : Bool) : List (String × Json) :=
  if b then [(name, .bool true)] else []

def text (name : String) (s : String) : List (String × Json) :=
  if s.isEmpty then [] else [(name, .str s)]

def strings (ss : List String) : Json := .arr (ss.map .str)

end DeliveryCharts.Record
