import DeliveryCharts.Error

/-!
The kinds of manifests, and the version that a manifest of each kind has to declare.
-/

namespace DeliveryCharts.Manifest

inductive Kind where
  | application
  | pipeline
  deriving DecidableEq, Repr

namespace Kind

def name : Kind → String
  | application => "Application"
  | pipeline => "Pipeline"

def apiVersion : Kind → String
  | application => "spinnaker.adobe.com/alpha1"
  | pipeline => "spinnaker.adobe.com/alpha1"

def all : List Kind := [application, pipeline]

def ofName? (s : String) : Option Kind := all.find? (·.name = s)

theorem ofName?_name (k : Kind) : ofName? k.name = some k := by cases k <;> decide

def validate (name version : String) : Except Error Kind :=
  match ofName? name with
  | none => .error (.unknownKind name)
  | some k =>
    if k.apiVersion = version then .ok k
    else .error (.apiVersionMismatch name k.apiVersion version)

end Kind

end DeliveryCharts.Manifest
