import DeliveryCharts.Stage.Basic

/-!
Stages that run another pipeline.
-/

namespace DeliveryCharts.Stage

open Json (Fault)
open Record (field)

structure NestedPipeline where
  /-- The owning application unless another is given. -/
  application : String := ""
  isNew : Bool := false
  /-- Id or name of the pipeline. -/
  pipeline : String := ""
  pipelineParameters : Members := []
  waitForCompletion : Bool := false

namespace NestedPipeline

def typeName : String := "pipeline"

def decode (ms : Members) : Except Fault NestedPipeline := do
  let application ← field ms "application" "" Coerce.string
  let isNew ← field ms "isNew" false Coerce.boolean
  let pipeline ← field ms "pipeline" "" Coerce.string
  let pipelineParameters ← field ms "pipelineParameters" [] Record.map
  let waitForCompletion ← field ms "waitForCompletion" false Coerce.boolean
  return { application, isNew, pipeline, pipelineParameters, waitForCompletion }

def encode (p : NestedPipeline) : List (String × Json) :=
  [("application", .str p.application)] ++ Record.flag "isNew" p.isNew ++
    [("pipeline", .str p.pipeline)] ++ Record.members "pipelineParameters" p.pipelineParameters ++
    [("waitForCompletion", .bool p.waitForCompletion)]

def codec : Codec NestedPipeline where
  fields := ["application", "isNew", "pipeline", "pipelineParameters", "waitForCompletion"]
  decode := decode
  encode := encode

def expand (p : NestedPipeline) (ctx : Context) : NestedPipeline :=
  { p with application := if p.application.isEmpty then ctx.application else p.application }

end NestedPipeline

end DeliveryCharts.Stage
