import DeliveryCharts.Text.Numeral

/-!
Why manifests, charts or values cannot be used.
-/

namespace DeliveryCharts

/-- Why a stage cannot be bound to an earlier one. Stage numbers count from 1. -/
inductive ReferenceError where
  | missingBinding (stage : String)
  | invalidReference (stage value : String)
  | outOfRange (stage : String) (reference count : Nat)
  | forwardReference (stage : String) (reference : Nat)
  | wrongStageType (stage : String) (reference : Nat) (found : String)
  | noExpectedArtifacts (stage : String)
  | noInputArtifacts (stage : String)
  | duplicateRefId (stage refId : String)
  deriving DecidableEq, Repr

namespace ReferenceError

def message : ReferenceError → String
  | missingBinding stage =>
    s!"stage '{stage}' has no bake binding: set a bake stage reference or requisiteStageRefIds"
  | invalidReference stage value =>
    s!"stage '{stage}' references '{value}', which is neither a stage number nor a known refId"
  | outOfRange stage reference count =>
    s!"stage '{stage}' references stage {reference}, but the pipeline has {count} stage(s)"
  | forwardReference stage reference =>
    s!"stage '{stage}' references stage {reference}, which is not before it in the pipeline"
  | wrongStageType stage reference found =>
    s!"stage '{stage}' references stage {reference} of type '{found}', " ++
      "expected a bakeManifest stage"
  | noExpectedArtifacts stage => s!"bake stage '{stage}' has no expected artifacts"
  | noInputArtifacts stage => s!"bake stage '{stage}' has no input artifacts"
  | duplicateRefId stage refId => s!"stage '{stage}' reuses refId '{refId}' of an earlier stage"

end ReferenceError

inductive Error where
  | unknownKind (kind : String)
  | apiVersionMismatch (kind expected found : String)
  | nameTooShort (kind name : String) (min : Nat)
  | missingField (field : String)
  | decode (context message : String)
  | unknownStageType (pipeline : String) (index : Nat) (stageType : String)
  | reference (e : ReferenceError)
  | manifestPathNotFound (path : String)
  | notYaml (path : String)
  | chartNotFound (path : String)
  | chartFileMissing (directory : String)
  | chartNameEmpty (file : String)
  | chartUnreadable (file : String)
  | yaml
  | io (cause : String)
  | valuesMerge (message : String)
  | noValuesSources
  deriving DecidableEq, Repr

namespace Error

/-- The text of an error. A YAML fault has no wording of its own. -/
def message : Error → String
  | unknownKind kind => s!"unknown manifest kind: {kind}"
  | apiVersionMismatch kind expected found =>
    s!"bad api version for kind {kind}, expected: {expected}, got: {found}"
  | nameTooShort kind name min =>
    s!"{kind} '{name}' has an invalid name length, {min} characters minimum"
  | missingField field => s!"Missing required field: {field}"
  | decode context message => s!"failed to decode {context}: {message}"
  | unknownStageType pipeline index stageType =>
    s!"pipeline '{pipeline}' stage {index}: unknown stage type '{stageType}'"
  | reference e => e.message
  | manifestPathNotFound path => s!"manifest path not found: {path}"
  | notYaml path => s!"not a yaml file: {path}"
  | chartNotFound path => s!"Chart not found: {path}"
  | chartFileMissing directory => s!"Invalid Chart.yaml: Chart.yaml not found in {directory}"
  | chartNameEmpty file => s!"Invalid Chart.yaml: {file}: name must not be empty"
  | chartUnreadable file => s!"Invalid Chart.yaml: {file}"
  | yaml => "Failed to parse YAML"
  | io cause => s!"IO error: {cause}"
  | valuesMerge message => s!"Values merge error: {message}"
  | noValuesSources => "no values files to load: default values are excluded and none were given"

/-- The document has the wrong kind, version or name, or lacks a field. -/
def isSchema : Error → Bool
  | unknownKind _ => true
  | apiVersionMismatch _ _ _ => true
  | nameTooShort _ _ _ => true
  | missingField _ => true
  | _ => false

/-- A file is missing or cannot be read. -/
def isFile : Error → Bool
  | io _ => true
  | manifestPathNotFound _ => true
  | notYaml _ => true
  | chartNotFound _ => true
  | _ => false

end Error

end DeliveryCharts
