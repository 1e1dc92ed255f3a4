import DeliveryCharts.Stage.Binding

/-!
Stages that deploy a baked manifest.
-/

namespace DeliveryCharts.Stage

open Json (Fault)
open Record (field)

structure Moniker where
  app : String := ""
  deriving DecidableEq, Repr

namespace Moniker

def decode (ms : Members) : Except Fault Moniker := do
  let app ← field ms "app" "" Coerce.string
  return { app }

def ofJson : Json → Except Fault Moniker := Record.read .buffer "Moniker" ["app"] decode

def toJson (m : Moniker) : Json := .ofMembers [("app", .str m.app)]

end Moniker

structure Deploy where
  account : Option String := none
  cloudProvider : String := ""
  manifestArtifactId : String := ""
  moniker : Moniker := {}
  namespaceOverride : String := ""
  source : String := ""
  skipExpressionEvaluation : Bool := false
  /-- The binding given on purpose; the platform does not see it. -/
  bakeReference : Option String := none
  deriving DecidableEq, Repr

namespace Deploy

def typeName : String := "deployManifest"

def decode (ms : Members) : Except Fault Deploy := do
  let account ← field ms "account" none Coerce.optString
  let bakeReference ← field ms "bakeStageRefIds" none Coerce.optString
  let cloudProvider ← field ms "cloudProvider" "" Coerce.string
  let manifestArtifactId ← field ms "manifestArtifactId" "" Coerce.string
  let moniker ← field ms "moniker" {} Moniker.ofJson
  let namespaceOverride ← field ms "namespaceOverride" "" Coerce.string
  let skipExpressionEvaluation ← field ms "skipExpressionEvaluation" false Coerce.boolean
  let source ← field ms "source" "" Coerce.string
  return {
    account, cloudProvider, manifestArtifactId, moniker, namespaceOverride, source
    skipExpressionEvaluation, bakeReference }

def encode (d : Deploy) : List (String × Json) :=
  Record.present "account" .str d.account ++
    [("cloudProvider", .str d.cloudProvider), ("manifestArtifactId", .str d.manifestArtifactId),
      ("moniker", d.moniker.toJson), ("namespaceOverride", .str d.namespaceOverride),
      ("source", .str d.source)] ++
    Record.flag "skipExpressionEvaluation" d.skipExpressionEvaluation ++
    Record.present "bakeStageRefIds" .str d.bakeReference

def codec : Codec Deploy where
  fields := ["account", "cloudProvider", "manifestArtifactId", "moniker", "namespaceOverride",
    "source", "skipExpressionEvaluation", "bakeStageRefIds"]
  decode := decode
  encode := encode

def expand (d : Deploy) (h : Header) (ctx : Context) : Except Error Deploy := do
  let manifestArtifactId ← ctx.boundArtifactId h d.bakeReference
  return { d with moniker := { app := ctx.application }, manifestArtifactId }

end Deploy

end DeliveryCharts.Stage
