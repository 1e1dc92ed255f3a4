import DeliveryCharts.Stage.Basic

/-!
Stages that delete resources from a cluster.
-/

namespace DeliveryCharts.Stage

open Json (Fault)
open Record (field)

structure LabelSelector where
  key : String := ""
  kind : String := ""
  values : List String := []
  deriving DecidableEq, Repr

namespace LabelSelector

def decode (ms : Members) : Except Fault LabelSelector := do
  let key ← field ms "key" "" Coerce.string
  let kind ← field ms "kind" "" Coerce.string
  let values ← field ms "values" [] Coerce.stringList
  return { key, kind, values }

def ofJson : Json → Except Fault LabelSelector :=
  Record.read .buffer "LabelSelector" ["key", "kind", "values"] decode

def toJson (s : LabelSelector) : Json :=
  .ofMembers [("key", .str s.key), ("kind", .str s.kind), ("values", Record.strings s.values)]

end LabelSelector

structure LabelSelectors where
  selectors : List LabelSelector := []
  deriving DecidableEq, Repr

namespace LabelSelectors

def decode (ms : Members) : Except Fault LabelSelectors := do
  let selectors ← field ms "selectors" [] (Record.list LabelSelector.ofJson)
  return { selectors }

def ofJson : Json → Except Fault LabelSelectors :=
  Record.read .buffer "LabelSelectors" ["selectors"] decode

def toJson (s : LabelSelectors) : Json :=
  .ofMembers [("selectors", .arr (s.selectors.map LabelSelector.toJson))]

end LabelSelectors

structure DeleteOptions where
  cascading : Bool := false
  gracePeriodSeconds : Int := 0
  deriving DecidableEq, Repr

namespace DeleteOptions

def decode (ms : Members) : Except Fault DeleteOptions := do
  let cascading ← field ms "cascading" false Coerce.boolean
  let gracePeriodSeconds ← field ms "gracePeriodSeconds" 0 Coerce.int
  return { cascading, gracePeriodSeconds }

def ofJson : Json → Except Fault DeleteOptions :=
  Record.read .buffer "DeleteOptions" ["cascading", "gracePeriodSeconds"] decode

def toJson (o : DeleteOptions) : Json :=
  .ofMembers [("cascading", .bool o.cascading), ("gracePeriodSeconds", .ofInt o.gracePeriodSeconds)]

end DeleteOptions

structure Delete where
  account : Option String := none
  /-- Always the owning application. -/
  app : Option String := none
  location : Option String := none
  /-- A second name of the location, read and never written. -/
  space : Option String := none
  kinds : List String := []
  labelSelectors : Option LabelSelectors := none
  options : Option DeleteOptions := none
  mode : Option String := none
  cloudProvider : Option String := none
  manifestArtifactId : Option String := none
  deriving DecidableEq, Repr

namespace Delete

def typeName : String := "deleteManifest"

def decode (ms : Members) : Except Fault Delete := do
  let account ← field ms "account" none Coerce.optString
  let app ← field ms "app" none Coerce.optString
  let cloudProvider ← field ms "cloudProvider" none Coerce.optString
  let kinds ← field ms "kinds" [] Coerce.stringList
  let labelSelectors ← field ms "labelSelectors" none (Record.optional LabelSelectors.ofJson)
  let location ← field ms "location" none Coerce.optString
  let manifestArtifactId ← field ms "manifestArtifactId" none Coerce.optString
  let mode ← field ms "mode" none Coerce.optString
  let space ← field ms "namespace" none Coerce.optString
  let options ← field ms "options" none (Record.optional DeleteOptions.ofJson)
  return {
    account, app, location, space, kinds, labelSelectors, options, mode, cloudProvider
    manifestArtifactId }

def encode (d : Delete) : List (String × Json) :=
  Record.present "account" .str d.account ++ Record.present "app" .str d.app ++
    Record.present "location" .str d.location ++ Record.items "kinds" .str d.kinds ++
    Record.present "labelSelectors" LabelSelectors.toJson d.labelSelectors ++
    Record.present "options" DeleteOptions.toJson d.options ++
    Record.present "mode" .str d.mode ++ Record.present "cloudProvider" .str d.cloudProvider ++
    Record.present "manifestArtifactId" .str d.manifestArtifactId

def codec : Codec Delete where
  fields := ["account", "app", "location", "namespace", "kinds", "labelSelectors", "options",
    "mode", "cloudProvider", "manifestArtifactId"]
  decode := decode
  encode := encode

def expand (d : Delete) (ctx : Context) : Delete :=
  { d with app := some ctx.application, location := d.location <|> d.space }

end Delete

end DeliveryCharts.Stage
