import DeliveryCharts.Json.Reader

/-!
Reading a JSON text whose form is known. Each value is held against the form as soon as it has been
read, so of several faults the first in the text is the one that is reported, and what no field
asks for is passed over.
-/

namespace DeliveryCharts.Json

open Text (Received)

inductive Shape where
  /-- Any value, which is checked when it has been read. -/
  | whole (check : Json → Except Fault Unit)
  /-- A list, or null for the empty list. -/
  | list (item : Shape)
  | map
  /-- A record with its fields, each with its spellings; the first of them names it. -/
  | record (name : String) (fields : List (List String × Shape))

namespace Shape

open Reader

def lift (r : Except TextFault α) : Except Fault α := r.mapError .text

/-- What stands where something else was expected. -/
def unexpected (expected : String) (s : Received) : Fault :=
  let found : Except TextFault Found :=
    match s with
    | some 'n' :: s => (word ['u', 'l', 'l'] s).map fun _ ↦ .null
    | some 't' :: s => (word ['r', 'u', 'e'] s).map fun _ ↦ .bool true
    | some 'f' :: s => (word ['a', 'l', 's', 'e'] s).map fun _ ↦ .bool false
    | some '"' :: s => (string s).map fun r ↦ .str r.1
    | some '-' :: s => (number true s).map fun r ↦ .num r.1
    | some '[' :: _ => .ok .sequence
    | some '\x7b' :: _ => .ok .map
    | some c :: s =>
      if Text.isDigit c then (number false (some c :: s)).map fun r ↦ .num r.1
      else .error .expectedValue
    | _ => .error .expectedValue
  match found with
  | .ok f => .invalidType f expected
  | .error e => .text e

/-- What stands behind the last field of a record that is given as a list. -/
def closeList (s : Received) : Except TextFault Received :=
  match skipSpace s with
  | [] => .error .eofInList
  | some ']' :: s => .ok s
  | some ',' :: s =>
    match skipSpace s with
    | some ']' :: _ => .error .trailingComma
    | _ => .error .trailingCharacters
  | _ => .error .trailingCharacters

def nameOf (spellings : List String) : String := spellings.headD ""

mutual

def read : Nat → Nat → Shape → Received → Except Fault (Json × Received)
  | 0, _, _, _ => .error (.text .eofInValue)
  | fuel + 1, depth, shape, s =>
    match shape with
    | whole check => do
      let (v, s) ← lift (value fuel depth s)
      check v
      return (v, s)
    | list item =>
      match skipSpace s with
      | [] => .error (.text .eofInValue)
      | some 'n' :: s => lift ((word ['u', 'l', 'l'] s).map (.null, ·))
      | some '[' :: s =>
        if depth ≤ 1 then .error (.text .tooDeep)
        else do
          let (vs, s) ← readItems fuel (depth - 1) item true s
          return (.arr vs, s)
      | s => .error (unexpected "a sequence" s)
    | map =>
      match skipSpace s with
      | [] => .error (.text .eofInValue)
      | some '\x7b' :: s => lift (value fuel depth (some '\x7b' :: s))
      | s => .error (unexpected "a map" s)
    | record name fields =>
      match skipSpace s with
      | [] => .error (.text .eofInValue)
      | some '\x7b' :: s =>
        if depth ≤ 1 then .error (.text .tooDeep)
        else do
          let (ms, s) ← readMembers fuel (depth - 1) fields true [] s
          return (.obj ms, s)
      | some '[' :: s =>
        if depth ≤ 1 then .error (.text .tooDeep)
        else do
          let (ms, s) ← readPositional fuel (depth - 1) fields true [] s
          return (.obj ms, s)
      | s => .error (unexpected ("struct " ++ name) s)

def readItems : Nat → Nat → Shape → Bool → Received → Except Fault (List Json × Received)
  | 0, _, _, _, _ => .error (.text .eofInList)
  | fuel + 1, depth, item, first, s => do
    let (more, s) ← lift (nextItem first s)
    if !more then return ([], s)
    let (v, s) ← read fuel depth item s
    let (vs, s) ← readItems fuel depth item false s
    return (v :: vs, s)

def readMembers : Nat → Nat → List (List String × Shape) → Bool → Members → Received →
    Except Fault (Members × Received)
  | 0, _, _, _, _, _ => .error (.text .eofInObject)
  | fuel + 1, depth, fields, first, ms, s => do
    let (more, s) ← lift (nextKey first s)
    if !more then return (ms, s)
    let (key, s) ← lift (string s)
    match fields.find? fun f ↦ f.1.contains key with
    | none =>
      let s ← lift (colon s)
      let s ← lift (skipValue fuel s)
      readMembers fuel depth fields false ms s
    | some (spellings, shape) =>
      let name := nameOf spellings
      if ms.contains name then .error (.duplicateField name)
      else
        let s ← lift (colon s)
        let (v, s) ← read fuel depth shape s
        readMembers fuel depth fields false (ms.insert name v) s

/-- The fields that are left, in the order of their declaration. -/
def readPositional : Nat → Nat → List (List String × Shape) → Bool → Members → Received →
    Except Fault (Members × Received)
  | 0, _, _, _, _, _ => .error (.text .eofInList)
  | _, _, [], _, ms, s => do
    let s ← lift (closeList s)
    return (ms, s)
  | fuel + 1, depth, (spellings, shape) :: fields, first, ms, s => do
    let (more, s) ← lift (nextItem first s)
    if !more then return (ms, s)
    let (v, s) ← read fuel depth shape s
    readPositional fuel depth fields false (ms.insert (nameOf spellings) v) s

end

/-- The tree of a text of this shape, with the fields of records under their names. -/
def parse (shape : Shape) (s : Received) : Except Fault Json := do
  let (v, rest) ← read (fuelFor s) maxDepth shape s
  lift (finish rest)
  return v

end Shape

end DeliveryCharts.Json
