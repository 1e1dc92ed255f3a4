import DeliveryCharts.Coerce
import DeliveryCharts.Record

/-!
The fields that name a stage and place it in the graph of execution.
-/

namespace DeliveryCharts.Stage

open Json (Fault)
open Record (field)

structure Header where
  name : String := ""
  stageType : String := ""
  refId : String := ""
  requisites : List String := []
  deriving DecidableEq, Repr

namespace Header

def fields : List String := ["name", "type", "refId", "requisiteStageRefIds"]

def decode (ms : Members) : Except Fault Header := do
  let name ← field ms "name" "" Coerce.string
  let refId ← field ms "refId" "" Coerce.string
  let requisites ← field ms "requisiteStageRefIds" [] Coerce.stringList
  let stageType ← field ms "type" "" Coerce.string
  return { name, stageType, refId, requisites }

def ofJson : Json → Except Fault Header := Record.read .document "StageHeader" fields decode

def encode (h : Header) : List (String × Json) :=
  [("name", .str h.name), ("type", .str h.stageType)] ++ Record.text "refId" h.refId ++
    [("requisiteStageRefIds", Record.strings h.requisites)]

/-- The name of the stage in messages. -/
def displayName (h : Header) : String := if h.name.isEmpty then "#" ++ h.refId else h.name

end Header

end DeliveryCharts.Stage
