import DeliveryCharts.Stage.Basic

/-!
Stages that wait for a person's decision.
-/

namespace DeliveryCharts.Stage

open Json (Fault)
open Record (field)

structure ManualJudgment where
  isNew : Bool := false
  judgmentInputs : List Json := []
  propagateAuthentication : Bool := false
  selectedStageRoles : List String := []
  instructions : String := ""

namespace ManualJudgment

def typeName : String := "manualJudgment"

def decode (ms : Members) : Except Fault ManualJudgment := do
  let instructions ← field ms "instructions" "" Coerce.string
  let isNew ← field ms "isNew" false Coerce.boolean
  let judgmentInputs ← field ms "judgmentInputs" [] (Record.nullableList .ok)
  let propagateAuthentication ← field ms "propagateAuthenticationContext" false Coerce.boolean
  let selectedStageRoles ← field ms "selectedStageRoles" [] Coerce.stringList
  return { isNew, judgmentInputs, propagateAuthentication, selectedStageRoles, instructions }

def encode (j : ManualJudgment) : List (String × Json) :=
  Record.flag "isNew" j.isNew ++
    [("judgmentInputs", .arr j.judgmentInputs),
      ("propagateAuthenticationContext", .bool j.propagateAuthentication)] ++
    Record.items "selectedStageRoles" .str j.selectedStageRoles ++
    [("instructions", .str j.instructions)]

def codec : Codec ManualJudgment where
  fields := ["isNew", "judgmentInputs", "propagateAuthenticationContext", "selectedStageRoles",
    "instructions"]
  decode := decode
  encode := encode

end ManualJudgment

end DeliveryCharts.Stage
