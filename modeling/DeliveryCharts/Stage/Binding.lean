import DeliveryCharts.Stage.Bake

/-!
Binding a stage to an earlier bake stage. A reference is a stage number, counted from 1, or the
`refId` of a stage that is resolved already.
-/

namespace DeliveryCharts.Stage

/-- A reference that is read as a stage number: decimal digits of a number of 64 bits, perhaps with
a plus sign. -/
def stageNumber? (reference : List Char) : Option Nat :=
  (Text.readNat? 10 reference).filter (· < twoPow 64)

def hasRefId (refId : String) (stage : Members) : Bool :=
  (stage.get? "refId").bind Json.str? = some refId

namespace Context

/-- The position, from 0, of the stage that a reference points at. -/
def positionOf (ctx : Context) (stage reference : String) : Except ReferenceError Nat :=
  let reference := Text.trimChars reference.toList
  match stageNumber? reference with
  | some n =>
    if n = 0 ∨ ctx.total < n then .error (.outOfRange stage n ctx.total)
    else if ctx.index ≤ n - 1 then .error (.forwardReference stage n)
    else .ok (n - 1)
  | none =>
    match ctx.resolved.findIdx? (hasRefId (.ofList reference)) with
    | some i => .ok i
    | none => .error (.invalidReference stage (.ofList reference))

/-- The reference of a stage: the one given on purpose unless it is blank, or the first stage that
has to run before. -/
def referenceOf (h : Header) (given : Option String) : Except ReferenceError String :=
  match (given.map Text.trim).filter (!·.isEmpty) with
  | some r => .ok r
  | none =>
    match h.requisites with
    | r :: _ => .ok r
    | [] => .error (.missingBinding h.displayName)

def boundBake (ctx : Context) (h : Header) (given : Option String) : Except Error Bake := do
  let stage := h.displayName
  let reference ← (referenceOf h given).mapError .reference
  let position ← (ctx.positionOf stage reference).mapError .reference
  let target := ctx.resolved.getD position []
  let found := ((target.get? "type").bind Json.str?).getD ""
  if found ≠ Bake.typeName then
    .error (.reference (.wrongStageType stage (position + 1) found))
  else
    let bake ← ctx.lift (Bake.codec.read target)
    return bake.spec

/-- The id of the first artifact that the bound bake stage is expected to produce. -/
def boundArtifactId (ctx : Context) (h : Header) (given : Option String) : Except Error String := do
  let bake ← ctx.boundBake h given
  match bake.expectedArtifacts with
  | a :: _ => return a.id
  | [] => .error (.reference (.noExpectedArtifacts h.displayName))

end Context

end DeliveryCharts.Stage
