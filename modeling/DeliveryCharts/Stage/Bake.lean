import DeliveryCharts.Stage.Artifact
import DeliveryCharts.Stage.Basic

/-!
Stages that bake manifests from templates.
-/

namespace DeliveryCharts.Stage

open Json (Fault)
open Record (field)

structure DefaultArtifact where
  customKind : Bool := false
  id : String := ""
  deriving DecidableEq, Repr

namespace DefaultArtifact

def decode (ms : Members) : Except Fault DefaultArtifact := do
  let customKind ← field ms "customKind" false Coerce.boolean
  let id ← field ms "id" "" Coerce.string
  return { customKind, id }

def ofJson : Json → Except Fault DefaultArtifact :=
  Record.read .buffer "DefaultArtifact" ["customKind", "id"] decode

def toJson (a : DefaultArtifact) : Json :=
  .ofMembers [("customKind", .bool a.customKind), ("id", .str a.id)]

end DefaultArtifact

structure MatchArtifact where
  artifactAccount : String := ""
  customKind : Option Bool := none
  id : Option String := none
  name : String := ""
  kind : String := ""
  deriving DecidableEq, Repr

namespace MatchArtifact

def decode (ms : Members) : Except Fault MatchArtifact := do
  let artifactAccount ← field ms "artifactAccount" "" Coerce.string
  let customKind ← field ms "customKind" none Coerce.optBool
  let id ← field ms "id" none Coerce.optString
  let name ← field ms "name" "" Coerce.string
  let kind ← field ms "type" "" Coerce.string
  return { artifactAccount, customKind, id, name, kind }

def ofJson : Json → Except Fault MatchArtifact :=
  Record.read .buffer "MatchArtifact" ["artifactAccount", "customKind", "id", "name", "type"] decode

def toJson (a : MatchArtifact) : Json :=
  .ofMembers ([("artifactAccount", .str a.artifactAccount)] ++
    Record.present "customKind" .bool a.customKind ++ Record.present "id" .str a.id ++
    [("name", .str a.name), ("type", .str a.kind)])

end MatchArtifact

structure ExpectedArtifact where
  defaultArtifact : Option DefaultArtifact := none
  displayName : String := ""
  /-- Derived from the names of the artifact and of its stage. -/
  id : String := ""
  matchArtifact : MatchArtifact := {}
  useDefaultArtifact : Option Bool := none
  usePriorArtifact : Option Bool := none
  deriving DecidableEq, Repr

namespace ExpectedArtifact

def decode (ms : Members) : Except Fault ExpectedArtifact := do
  let defaultArtifact ← field ms "defaultArtifact" none (Record.optional DefaultArtifact.ofJson)
  let displayName ← field ms "displayName" "" Coerce.string
  let id ← field ms "id" "" Coerce.string
  let matchArtifact ← field ms "matchArtifact" {} MatchArtifact.ofJson
  let useDefaultArtifact ← field ms "useDefaultArtifact" none Coerce.optBool
  let usePriorArtifact ← field ms "usePriorArtifact" none Coerce.optBool
  return {
    defaultArtifact, displayName, id, matchArtifact, useDefaultArtifact, usePriorArtifact }

def ofJson : Json → Except Fault ExpectedArtifact :=
  Record.read .buffer "ExpectedArtifact"
    ["defaultArtifact", "displayName", "id", "matchArtifact", "useDefaultArtifact",
      "usePriorArtifact"] decode

def toJson (a : ExpectedArtifact) : Json :=
  .ofMembers (Record.present "defaultArtifact" DefaultArtifact.toJson a.defaultArtifact ++
    [("displayName", .str a.displayName), ("id", .str a.id),
      ("matchArtifact", a.matchArtifact.toJson)] ++
    Record.present "useDefaultArtifact" .bool a.useDefaultArtifact ++
    Record.present "usePriorArtifact" .bool a.usePriorArtifact)

end ExpectedArtifact

structure ArtifactRef where
  artifactAccount : String := ""
  id : Option String := none
  name : String := ""
  kind : String := ""
  version : String := ""
  deriving DecidableEq, Repr

namespace ArtifactRef

def decode (ms : Members) : Except Fault ArtifactRef := do
  let artifactAccount ← field ms "artifactAccount" "" Coerce.string
  let id ← field ms "id" none Coerce.optString
  let name ← field ms "name" "" Coerce.string
  let kind ← field ms "type" "" Coerce.string
  let version ← field ms "version" "" Coerce.string
  return { artifactAccount, id, name, kind, version }

def ofJson : Json → Except Fault ArtifactRef :=
  Record.read .buffer "ArtifactRef" ["artifactAccount", "id", "name", "type", "version"] decode

def toJson (a : ArtifactRef) : Json :=
  .ofMembers ([("artifactAccount", .str a.artifactAccount)] ++ Record.present "id" .str a.id ++
    [("name", .str a.name), ("type", .str a.kind), ("version", .str a.version)])

end ArtifactRef

/-- Where a baked template comes from. -/
structure InputArtifact where
  account : String := ""
  artifact : ArtifactRef := {}
  deriving DecidableEq, Repr

namespace InputArtifact

def decode (ms : Members) : Except Fault InputArtifact := do
  let account ← field ms "account" "" Coerce.string
  let artifact ← field ms "artifact" {} ArtifactRef.ofJson
  return { account, artifact }

def ofJson : Json → Except Fault InputArtifact :=
  Record.read .buffer "InputArtifact" ["account", "artifact"] decode

def toJson (a : InputArtifact) : Json :=
  .ofMembers [("account", .str a.account), ("artifact", a.artifact.toJson)]

end InputArtifact

structure Bake where
  account : Option String := none
  outputName : String := ""
  expectedArtifacts : List ExpectedArtifact := []
  inputArtifacts : List InputArtifact := []
  space : String := ""
  templateRenderer : String := ""
  overrides : Members := []
  rawOverrides : Bool := false
  evaluateOverrides : Bool := false

namespace Bake

def typeName : String := "bakeManifest"

def decode (ms : Members) : Except Fault Bake := do
  let account ← field ms "account" none Coerce.optString
  let evaluateOverrides ← field ms "evaluateOverrideExpressions" false Coerce.boolean
  let expectedArtifacts ← field ms "expectedArtifacts" [] (Record.list ExpectedArtifact.ofJson)
  let inputArtifacts ← field ms "inputArtifacts" [] (Record.list InputArtifact.ofJson)
  let space ← field ms "namespace" "" Coerce.string
  let outputName ← field ms "outputName" "" Coerce.string
  let overrides ← field ms "overrides" [] Record.map
  let rawOverrides ← field ms "rawOverrides" false Coerce.boolean
  let templateRenderer ← field ms "templateRenderer" "" Coerce.string
  return {
    account, outputName, expectedArtifacts, inputArtifacts, space, templateRenderer, overrides
    rawOverrides, evaluateOverrides }

def encode (b : Bake) : List (String × Json) :=
  Record.present "account" .str b.account ++ [("outputName", .str b.outputName)] ++
    Record.items "expectedArtifacts" ExpectedArtifact.toJson b.expectedArtifacts ++
    Record.items "inputArtifacts" InputArtifact.toJson b.inputArtifacts ++
    [("namespace", .str b.space), ("templateRenderer", .str b.templateRenderer)] ++
    Record.members "overrides" b.overrides ++ Record.flag "rawOverrides" b.rawOverrides ++
    Record.flag "evaluateOverrideExpressions" b.evaluateOverrides

def codec : Codec Bake where
  fields := ["account", "outputName", "expectedArtifacts", "inputArtifacts", "namespace",
    "templateRenderer", "overrides", "rawOverrides", "evaluateOverrideExpressions"]
  decode := decode
  encode := encode

def toJson (b : Bake) : Json := .ofMembers b.encode

/-- Artifacts get their ids, and the platform wants an account repeated inside its artifact. -/
def expand (b : Bake) (h : Header) : Except Error Bake :=
  if b.expectedArtifacts.isEmpty then .error (.reference (.noExpectedArtifacts h.displayName))
  else if b.inputArtifacts.isEmpty then .error (.reference (.noInputArtifacts h.displayName))
  else
    .ok { b with
      expectedArtifacts :=
        b.expectedArtifacts.map fun a ↦ { a with id := artifactId a.displayName h.name }
      inputArtifacts := b.inputArtifacts.map fun a ↦
        { a with artifact := { a.artifact with artifactAccount := a.account } } }

end Bake

end DeliveryCharts.Stage
