import DeliveryCharts.Stage.Binding

/-!
Stages that run a job from a baked manifest.
-/

namespace DeliveryCharts.Stage

open Json (Fault)
open Record (field)

structure RunJob where
  isNew : Bool := false
  account : String := ""
  credentials : String := ""
  aliasName : String := ""
  /-- The owning application unless another is given. -/
  application : String := ""
  cloudProvider : String := ""
  source : String := ""
  manifestArtifactId : String := ""
  consumeArtifactSource : String := ""
  /-- The binding given on purpose; the platform does not see it. -/
  bakeReference : Option String := none
  deriving DecidableEq, Repr

namespace RunJob

def typeName : String := "runJobManifest"

def decode (ms : Members) : Except Fault RunJob := do
  let account ← field ms "account" "" Coerce.string
  let aliasName ← field ms "alias" "" Coerce.string
  let application ← field ms "application" "" Coerce.string
  let cloudProvider ← field ms "cloudProvider" "" Coerce.string
  let consumeArtifactSource ← field ms "consumeArtifactSource" "" Coerce.string
  let credentials ← field ms "credentials" "" Coerce.string
  let isNew ← field ms "isNew" false Coerce.boolean
  let bakeReference ← field ms "jobBakeStageRefIds" none Coerce.optString
  let manifestArtifactId ← field ms "manifestArtifactId" "" Coerce.string
  let source ← field ms "source" "" Coerce.string
  return {
    isNew, account, credentials, aliasName, application, cloudProvider, source, manifestArtifactId
    consumeArtifactSource, bakeReference }

def encode (j : RunJob) : List (String × Json) :=
  Record.flag "isNew" j.isNew ++
    [("account", .str j.account), ("credentials", .str j.credentials), ("alias", .str j.aliasName),
      ("application", .str j.application), ("cloudProvider", .str j.cloudProvider),
      ("source", .str j.source), ("manifestArtifactId", .str j.manifestArtifactId),
      ("consumeArtifactSource", .str j.consumeArtifactSource)] ++
    Record.present "jobBakeStageRefIds" .str j.bakeReference

def codec : Codec RunJob where
  fields := ["isNew", "account", "credentials", "alias", "application", "cloudProvider", "source",
    "manifestArtifactId", "consumeArtifactSource", "jobBakeStageRefIds"]
  decode := decode
  encode := encode

def expand (j : RunJob) (h : Header) (ctx : Context) : Except Error RunJob := do
  let manifestArtifactId ← ctx.boundArtifactId h j.bakeReference
  let application := if j.application.isEmpty then ctx.application else j.application
  return { j with application, manifestArtifactId }

end RunJob

end DeliveryCharts.Stage
