import DeliveryCharts.Stage.Artifact
import DeliveryCharts.Template.Take
import DeliveryCharts.Text.Blank

/-!
The functions that templates call.
-/

namespace DeliveryCharts.Template.Function

/-- Stops the rendering. -/
def fail (message : String) : Except Fault Value := .error (.invalid message)

/-- A map of keys and values in turn. -/
def dict (args : List Value) : Except Fault Value :=
  if args.length % 2 ≠ 0 then
    .error ⟨.missingArgument,
      some "dict requires an even number of arguments (key-value pairs)", none⟩
  else (members [] args).map fun ms ↦ .ofJson (.obj ms)
where
  members (ms : Members) : List Value → Except Fault Members
    | .text key _ :: v :: rest => do members (ms.insert key (← v.toJson)) rest
    | _ :: _ :: _ => .error (.invalid "dict keys must be strings")
    | _ => .ok ms

def list (args : List Value) : Value := .ofList args

/-- The attribute, unless it is undefined, or the default. -/
def get (v : Value) (key : String) (default : Option Value) : Value :=
  match v.attribute? key with
  | some (.undefined _) => default.getD .missing
  | some w => w
  | none => default.getD .missing

/-- The first value that is not undefined, none or an empty text. -/
def coalesce (args : List Value) : Value :=
  (args.find? fun v ↦ !v.isUndefined && !v.isNone && v.str? ≠ some "").getD .missing

def ternary (yes no condition : Value) : Value := if condition.truth then yes else no

/-- A number as it is, or a text that is one. -/
def toint (v : Value) : Except Fault Int :=
  match v.int64? with
  | some z => .ok z
  | none =>
    let text := (v.str?.map Text.trim).getD ""
    match (Text.readInt? 10 text.toList).filter (Width.signed 64) with
    | some z => .ok z
    | none => .error (.invalid s!"cannot convert {v.toText} to int")

def maxRange : Nat := 100000

/-- The numbers from a bound to another that is not included. -/
def range (low : Nat) (high step : Option Nat) : Except Fault Value := do
  let (low, high) := match high with
    | some high => (low, high)
    | none => (0, low)
  let step := step.getD 1
  if step = 0 then throw (.invalid "cannot create range with step of 0")
  let count := (high - low + step - 1) / step
  if count > maxRange then throw (.invalid "range has too many elements")
  return .list ((List.range count).map fun i ↦ .ofNat (low + i * step)) true

/-- The functions that need nothing but their arguments. -/
def table (name : String) : Option (Take Value) :=
  match name with
  | "fail" => some do
    let message ← Take.text
    Take.finish (fail message)
  | "dict" => some do
    let args ← Take.rest
    dict args
  | "list" => some do return list (← Take.rest)
  | "get" => some do
    let v ← Take.value
    let key ← Take.text
    return get v key (← Take.anyOptional)
  | "coalesce" => some do return coalesce (← Take.rest)
  | "ternary" => some do
    let yes ← Take.value
    let no ← Take.value
    return ternary yes no (← Take.value)
  | "tostring" => some do return .ofString (← Take.value).toText
  | "toint" => some do
    return .int (← Take.finish (toint (← Take.value)))
  | "artifact_id" => some do
    let display ← Take.text
    let stage ← Take.text
    return .ofString (Stage.artifactId display stage)
  | "range" => some do
    let bound := Take.natBelow "u32" (twoPow 32)
    let low ← Take.convert bound
    let high ← Take.optional bound
    Take.finish (range low high (← Take.optional bound))
  | _ => none

/-- The names that are known without being assigned. -/
def names : List String :=
  ["fail", "dict", "list", "get", "coalesce", "ternary", "tostring", "toint", "artifact_id",
    "range", "namespace", "debug"]

end DeliveryCharts.Template.Function
