import DeliveryCharts.Stage.Basic

/-!
Stages that run a job of a build server.
-/

namespace DeliveryCharts.Stage

open Json (Fault)
open Record (field)

structure Jenkins where
  isNew : Bool := false
  master : String := ""
  job : String := ""
  parameters : Members := []
  markUnstableAsSuccessful : Bool := false
  waitForCompletion : Bool := false

namespace Jenkins

def typeName : String := "jenkins"

def decode (ms : Members) : Except Fault Jenkins := do
  let isNew ← field ms "isNew" false Coerce.boolean
  let job ← field ms "job" "" Coerce.string
  let markUnstableAsSuccessful ← field ms "markUnstableAsSuccessful" false Coerce.boolean
  let master ← field ms "master" "" Coerce.string
  let parameters ← field ms "parameters" [] Record.map
  let waitForCompletion ← field ms "waitForCompletion" false Coerce.boolean
  return { isNew, master, job, parameters, markUnstableAsSuccessful, waitForCompletion }

def encode (j : Jenkins) : List (String × Json) :=
  Record.flag "isNew" j.isNew ++
    [("master", .str j.master), ("job", .str j.job), ("parameters", .obj j.parameters),
      ("markUnstableAsSuccessful", .bool j.markUnstableAsSuccessful),
      ("waitForCompletion", .bool j.waitForCompletion)]

def codec : Codec Jenkins where
  fields := ["isNew", "master", "job", "parameters", "markUnstableAsSuccessful",
    "waitForCompletion"]
  decode := decode
  encode := encode

end Jenkins

end DeliveryCharts.Stage
