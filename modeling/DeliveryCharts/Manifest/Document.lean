import DeliveryCharts.Manifest.Kind
import DeliveryCharts.Manifest.Pipeline
import DeliveryCharts.Text.Casing

/-!
Compiling one document: it is routed to its kind, names are inferred from its metadata, and the
stages of a pipeline are resolved.
-/

namespace DeliveryCharts.Manifest

open Json (Fault)
open Record (field)

/-- A document before it is routed. -/
structure Envelope where
  apiVersion : String := ""
  kind : String := ""
  metadata : Members := []
  spec : Members := []

def Envelope.decode (ms : Members) : Except Fault Envelope := do
  let apiVersion ← field ms "apiVersion" "" Coerce.string
  let kind ← field ms "kind" "" Coerce.string
  let metadata ← field ms "metadata" [] Record.map
  let spec ← field ms "spec" [] Record.map
  return { apiVersion, kind, metadata, spec }

structure ApplicationMetadata where
  name : String := ""
  deriving DecidableEq, Repr

def ApplicationMetadata.decode (ms : Members) : Except Fault ApplicationMetadata := do
  let name ← field ms "name" "" Coerce.string
  return { name }

structure PipelineMetadata where
  name : String := ""
  application : String := ""
  deriving DecidableEq, Repr

def PipelineMetadata.decode (ms : Members) : Except Fault PipelineMetadata := do
  let application ← field ms "application" "" Coerce.string
  let name ← field ms "name" "" Coerce.string
  return { name, application }

structure ApplicationManifest where
  apiVersion : String
  metadata : ApplicationMetadata
  spec : Application
  deriving DecidableEq

structure PipelineManifest where
  apiVersion : String
  metadata : PipelineMetadata
  spec : Pipeline
  deriving DecidableEq

def minNameLength : Nat := 3

def checkName (kind : Kind) (name : String) : Except Error Unit :=
  if name.toList.length < minNameLength then .error (.nameTooShort kind.name name minNameLength)
  else .ok ()

def decodeAs (context : String) (r : Except Fault α) : Except Error α :=
  r.mapError fun e ↦ .decode context e.message

namespace ApplicationManifest

/-- The platform accepts names of applications in lower case only. -/
def compile (e : Envelope) : Except Error ApplicationManifest := do
  let metadata ← decodeAs "application metadata" (ApplicationMetadata.decode e.metadata)
  let spec ← decodeAs s!"spec of application '{metadata.name}'" (Application.decode e.spec)
  let spec := { spec with name := Text.lower metadata.name }
  checkName .application spec.name
  return { apiVersion := e.apiVersion, metadata, spec }

def toJson (m : ApplicationManifest) : Json :=
  .obj [("apiVersion", .str m.apiVersion), ("kind", .str Kind.application.name),
    ("metadata", .obj [("name", .str m.metadata.name)]), ("spec", m.spec.toJson)]

end ApplicationManifest

namespace PipelineManifest

def compile (r : Stage.Registry) (e : Envelope) : Except Error PipelineManifest := do
  let metadata ← decodeAs "pipeline metadata" (PipelineMetadata.decode e.metadata)
  let spec ← decodeAs s!"spec of pipeline '{metadata.name}'" (Pipeline.decode e.spec)
  let application := Text.lower metadata.application
  if application.isEmpty then
    throw (.missingField s!"metadata.application of pipeline '{metadata.name}'")
  checkName .pipeline metadata.name
  let stages ← Stage.resolve r application metadata.name spec.stages
  return {
    apiVersion := e.apiVersion, metadata
    spec := { spec with name := metadata.name, application, stages } }

def toJson (m : PipelineManifest) : Json :=
  .obj [("apiVersion", .str m.apiVersion), ("kind", .str Kind.pipeline.name),
    ("metadata", .obj [("name", .str m.metadata.name),
      ("application", .str m.metadata.application)]),
    ("spec", m.spec.toJson)]

end PipelineManifest

/-- A compiled document. -/
inductive Compiled where
  | application (m : ApplicationManifest)
  | pipeline (m : PipelineManifest)
  deriving DecidableEq

namespace Compiled

def kind : Compiled → Kind
  | application _ => .application
  | pipeline _ => .pipeline

/-- `shop` or `shop/release`. -/
def displayName : Compiled → String
  | application m => m.spec.name
  | pipeline m => m.spec.application ++ "/" ++ m.spec.name

/-- The text by which the platform's copy is compared with the object. -/
def canonicalText : Compiled → String
  | application m => m.spec.toJson.canonicalText
  | pipeline m => m.spec.toPlatform.toJson.canonicalText

def toJson : Compiled → Json
  | application m => m.toJson
  | pipeline m => m.toJson

end Compiled

def routed (r : Stage.Registry) (e : Envelope) : Except Error Compiled := do
  match ← Kind.validate e.kind e.apiVersion with
  | .application => return .application (← ApplicationManifest.compile e)
  | .pipeline => return .pipeline (← PipelineManifest.compile r e)

/-- The document at a position of its stream, from 0; nothing for an empty document. -/
def compileDocument (r : Stage.Registry) (position : Nat) : Json → Except Error (Option Compiled)
  | .null => .ok none
  | .obj ms => do
    let e ← decodeAs s!"manifest document {position + 1}" (Envelope.decode ms)
    return some (← routed r e)
  | _ => .error (.decode s!"manifest document {position + 1}" "expected a mapping")

end DeliveryCharts.Manifest
