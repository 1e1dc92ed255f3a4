import DeliveryCharts.Manifest.Application
import DeliveryCharts.Stage.Resolve

/-!
Pipelines as the platform stores them.
-/

namespace DeliveryCharts.Manifest

open Json (Fault Shape)
open Record (field)

structure Pipeline where
  /-- The application of the manifest in lower case. -/
  application : String := ""
  name : String := ""
  index : Int := 0
  description : Option String := none
  disabled : Bool := false
  keepWaitingPipelines : Bool := false
  limitConcurrent : Bool := false
  spelEvaluator : Option String := none
  parameterConfig : List Json := []
  notifications : List Json := []
  triggers : List Json := []
  stages : List Members := []
  deriving DecidableEq

namespace Pipeline

def fields : List String :=
  ["application", "name", "index", "description", "disabled", "keepWaitingPipelines",
    "limitConcurrent", "spelEvaluator", "parameterConfig", "notifications", "triggers", "stages"]

def decode (ms : Members) : Except Fault Pipeline := do
  let application ← field ms "application" "" Coerce.string
  let description ← field ms "description" none Coerce.optString
  let disabled ← field ms "disabled" false Coerce.boolean
  let index ← field ms "index" 0 Coerce.int
  let keepWaitingPipelines ← field ms "keepWaitingPipelines" false Coerce.boolean
  let limitConcurrent ← field ms "limitConcurrent" false Coerce.boolean
  let name ← field ms "name" "" Coerce.string
  let notifications ← field ms "notifications" [] (Record.nullableList .ok)
  let parameterConfig ← field ms "parameterConfig" [] (Record.nullableList .ok)
  let spelEvaluator ← field ms "spelEvaluator" none Coerce.optString
  let stages ← field ms "stages" [] (Record.nullableList Record.map)
  let triggers ← field ms "triggers" [] (Record.nullableList .ok)
  return {
    application, name, index, description, disabled, keepWaitingPipelines, limitConcurrent
    spelEvaluator, parameterConfig, notifications, triggers, stages }

def ofJson : Json → Except Fault Pipeline := Record.read .document "Pipeline" fields decode

/-- The members in the order in which a manifest shows them. -/
def encode (p : Pipeline) : List (String × Json) :=
  [("application", .str p.application), ("name", .str p.name), ("index", .ofInt p.index)] ++
    Record.present "description" .str p.description ++ Record.flag "disabled" p.disabled ++
    Record.flag "keepWaitingPipelines" p.keepWaitingPipelines ++
    Record.flag "limitConcurrent" p.limitConcurrent ++
    Record.present "spelEvaluator" .str p.spelEvaluator ++
    Record.items "parameterConfig" id p.parameterConfig ++
    Record.items "notifications" id p.notifications ++ Record.items "triggers" id p.triggers ++
    [("stages", .arr (p.stages.map .obj))]

def toJson (p : Pipeline) : Json := .obj p.encode

/-- What the platform receives: stages without the keys that are input only. -/
def toPlatform (p : Pipeline) : Pipeline :=
  { p with stages := p.stages.map Stage.stripInputOnly }

def shape : Shape :=
  let any : Shape := .whole fun _ ↦ .ok ()
  .record "Pipeline" [
    (["application"], leaf Coerce.string), (["name"], leaf Coerce.string),
    (["index"], leaf Coerce.int), (["description"], leaf Coerce.optString),
    (["disabled"], leaf Coerce.boolean), (["keepWaitingPipelines"], leaf Coerce.boolean),
    (["limitConcurrent"], leaf Coerce.boolean), (["spelEvaluator"], leaf Coerce.optString),
    (["parameterConfig"], .list any), (["notifications"], .list any), (["triggers"], .list any),
    (["stages"], .list .map)]

/-- Decodes what the platform has stored; what it adds is ignored. -/
def ofPlatform (payload : Text.Bytes) : Except Error Pipeline :=
  ((shape.parse (Text.received payload) >>= ofJson).map toPlatform).mapError fun e ↦
    .decode "existing pipeline" e.message

end Pipeline

end DeliveryCharts.Manifest
