import DeliveryCharts.Stage.Delete
import DeliveryCharts.Stage.Deploy
import DeliveryCharts.Stage.Jenkins
import DeliveryCharts.Stage.ManualJudgment
import DeliveryCharts.Stage.NestedPipeline
import DeliveryCharts.Stage.RunJob
import DeliveryCharts.Stage.Wait

/-!
Resolving the stages of a pipeline in their order: each is decoded as the type that it names, its
derived fields are filled in, and it is written back. A stage sees only the stages before it.
-/

namespace DeliveryCharts.Stage

inductive Kind where
  | bake
  | delete
  | deploy
  | jenkins
  | manualJudgment
  | nestedPipeline
  | runJob
  | wait
  deriving DecidableEq, Repr

namespace Kind

def typeName : Kind → String
  | bake => Bake.typeName
  | delete => Delete.typeName
  | deploy => Deploy.typeName
  | jenkins => Jenkins.typeName
  | manualJudgment => ManualJudgment.typeName
  | nestedPipeline => NestedPipeline.typeName
  | runJob => RunJob.typeName
  | wait => Wait.typeName

/-- In the order of their names. -/
def all : List Kind :=
  [bake, delete, deploy, jenkins, manualJudgment, nestedPipeline, runJob, wait]

theorem mem_all (k : Kind) : k ∈ all := by cases k <;> decide

def ofTypeName? (s : String) : Option Kind := all.find? (·.typeName = s)

end Kind

/-- Decodes a stage, gives it its `refId` and its policy, expands and writes it. -/
def resolveAs (c : Codec σ) (expand : σ → Header → Context → Except Error σ) (raw : Members)
    (refId : String) (ctx : Context) : Except Error Members := do
  let stage ← ctx.lift (c.read raw)
  let header := { stage.header with refId }
  let spec ← expand stage.spec header ctx
  return c.write { stage with header, policy := stage.policy.apply, spec }

def Kind.resolve : Kind → Members → String → Context → Except Error Members
  | bake => resolveAs Bake.codec fun b h _ ↦ b.expand h
  | delete => resolveAs Delete.codec fun d _ ctx ↦ .ok (d.expand ctx)
  | deploy => resolveAs Deploy.codec Deploy.expand
  | jenkins => resolveAs Jenkins.codec fun j _ _ ↦ .ok j
  | manualJudgment => resolveAs ManualJudgment.codec fun j _ _ ↦ .ok j
  | nestedPipeline => resolveAs NestedPipeline.codec fun p _ ctx ↦ .ok (p.expand ctx)
  | runJob => resolveAs RunJob.codec RunJob.expand
  | wait => resolveAs Wait.codec fun w _ _ ↦ .ok w

/-- The types of stages that a pipeline may use, in the order of their names, each once. -/
structure Registry where
  kinds : List Kind

namespace Registry

def empty : Registry := ⟨[]⟩

def builtin : Registry := ⟨Kind.all⟩

def contains (r : Registry) (typeName : String) : Bool := r.kinds.any (·.typeName = typeName)

def find? (r : Registry) (typeName : String) : Option Kind :=
  r.kinds.find? (·.typeName = typeName)

def register (r : Registry) (k : Kind) : Registry :=
  ⟨Kind.all.filter fun l ↦ l = k || r.kinds.contains l⟩

def types (r : Registry) : List String := r.kinds.map Kind.typeName

end Registry

/-- The `refId` of the stage at a position that gives none is its number. -/
def effectiveRefId (h : Header) (index : Nat) : String :=
  if h.refId.isEmpty then Text.ofNat (index + 1) else h.refId

/-- One stage, whose context holds the stages before it. The `refId`s used so far are `seen`. -/
def resolveStage (r : Registry) (ctx : Context) (seen : List String) (raw : Members) :
    Except Error (Members × String) := do
  let header ← ctx.lift (Header.decode raw)
  let refId := effectiveRefId header ctx.index
  let header := { header with refId }
  if seen.contains refId then
    .error (.reference (.duplicateRefId header.displayName refId))
  else
    match r.find? header.stageType with
    | none => .error (.unknownStageType ctx.pipeline (ctx.index + 1) header.stageType)
    | some k => return (← k.resolve raw refId ctx, refId)

/-- The stages after a run, and the error that ended it. -/
structure Run where
  stages : List Members
  error : Option Error

/-- Resolves the stages `rest` behind those that are `done`. Where a stage fails, it and all after
it stay as they are. -/
def resolveFrom (r : Registry) (application pipeline : String) (total : Nat) (done : List Members)
    (seen : List String) : List Members → Run
  | [] => ⟨done, none⟩
  | raw :: rest =>
    let ctx : Context := ⟨application, pipeline, done.length, done, total⟩
    match resolveStage r ctx seen raw with
    | .ok (stage, refId) =>
      resolveFrom r application pipeline total (done ++ [stage]) (seen ++ [refId]) rest
    | .error e => ⟨done ++ raw :: rest, some e⟩

def resolveAll (r : Registry) (application pipeline : String) (stages : List Members) : Run :=
  resolveFrom r application pipeline stages.length [] [] stages

/-- The resolved stages, or the first error. -/
def resolve (r : Registry) (application pipeline : String) (stages : List Members) :
    Except Error (List Members) :=
  let run := resolveAll r application pipeline stages
  match run.error with
  | none => .ok run.stages
  | some e => .error e

/-- Keys that compiled manifests keep, so that they compile to the same stages again, and that the
platform never sees. -/
def inputOnlyKeys : List String := ["ifStageFails", "bakeStageRefIds", "jobBakeStageRefIds"]

def stripInputOnly (stage : Members) : Members := stage.filter fun m ↦ m.1 ∉ inputOnlyKeys

end DeliveryCharts.Stage
