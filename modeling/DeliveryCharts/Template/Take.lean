import DeliveryCharts.Template.Operation

/-!
Taking the arguments of a filter, function or test one after another. Where undefined values are
faults, only a parameter for any value takes one.
-/

namespace DeliveryCharts.Template

/-- How strictly undefined values are treated, and whether text is written into markup. -/
structure Mode where
  strict : Bool
  html : Bool
  deriving DecidableEq, Repr

abbrev Take := ReaderT Mode (StateT (List Value) (Except Fault))

namespace Take

def next? : Take (Option Value) := do
  match ← get with
  | [] => return none
  | v :: vs =>
    set vs
    return some v

def value : Take Value := do
  match ← next? with
  | some v => return v
  | none => throw .missingArgument

/-- A strict mode refuses undefined values. -/
def checked (v : Value) : Take Unit := do
  if v.isUndefined && (← read).strict then throw .undefined

def convert (f : Value → Except Fault α) : Take α := do
  match ← next? with
  | none => throw .missingArgument
  | some v =>
    checked v
    f v

/-- Parameters at the end may have no argument. -/
def optional (f : Value → Except Fault α) : Take (Option α) := do
  match ← next? with
  | none => return none
  | some v =>
    checked v
    match v with
    | .undefined _ => return none
    | .none => return none
    | v => return some (← f v)

def rest : Take (List Value) := do
  let vs ← get
  set ([] : List Value)
  return vs

/-- The named arguments, if there are any at the end. -/
def named : Take (List (Value × Value)) := do
  match (← get).reverse with
  | .map entries true :: before =>
    set before.reverse
    return entries
  | _ => return []

def done : Take Unit := do
  if !(← get).isEmpty then throw .tooManyArguments

/-- What can fail on its own account does so once no argument is left. -/
def finish (result : Except Fault α) : Take α := do
  done
  result

def textOf : Value → Except Fault String
  | .map _ true => .error (.invalid "cannot convert kwargs to string")
  | v => .ok v.toText

def unconvertible (v : Value) (type : String) : Fault :=
  .invalid s!"cannot convert {v.kind.name} to {type}"

def natOf (v : Value) : Except Fault Nat :=
  match v.count? with
  | some n => .ok n
  | none => .error (unconvertible v "usize")

def natBelow (type : String) (limit : Nat) (v : Value) : Except Fault Nat :=
  match v.count?.filter (· < limit) with
  | some n => .ok n
  | none => .error (unconvertible v type)

def boolOf : Value → Except Fault Bool
  | .bool b => .ok b
  | v => .error (unconvertible v "bool")

def text : Take String := convert textOf

def nat : Take Nat := convert natOf

def anyOptional : Take (Option Value) := optional .ok

/-- What a named argument says; there may be none of that name. -/
def lookup (entries : List (Value × Value)) (name : String) : Option Value :=
  match Value.find (.ofString name) entries with
  | some (.undefined _) => none
  | some .none => none
  | v? => v?

/-- Only arguments of these names are known. -/
def onlyNamed (entries : List (Value × Value)) (names : List String) : Except Fault Unit :=
  match entries.find? fun e ↦ !names.contains e.1.toText with
  | some e =>
    .error ⟨.tooManyArguments, some s!"unknown keyword argument '{e.1.toText}'", none⟩
  | none => .ok ()

/-- Takes all arguments. -/
def all (mode : Mode) (args : List Value) (t : Take α) : Except Fault α := do
  let (a, _) ← ((do let a ← t; done; return a : Take α).run mode).run args
  return a

end Take

end DeliveryCharts.Template
