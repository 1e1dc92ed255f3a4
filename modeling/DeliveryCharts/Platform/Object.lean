import DeliveryCharts.Manifest.Document

/-!
What the platform calls its objects.
-/

namespace DeliveryCharts.Platform

open Manifest (Compiled Kind)

inductive Object where
  | application (name : String)
  | pipeline (application name : String)
  deriving DecidableEq, Repr, Inhabited

namespace Object

def kind : Object → Kind
  | application _ => .application
  | pipeline _ _ => .pipeline

/-- The application that an object belongs to. -/
def owner : Object → String
  | application name => name
  | pipeline app _ => app

def describe : Object → String
  | application name => s!"application '{name}'"
  | pipeline app name => s!"pipeline '{name}' in application '{app}'"

def ofCompiled : Compiled → Object
  | .application m => application m.spec.name
  | .pipeline m => pipeline m.spec.application m.spec.name

end Object

end DeliveryCharts.Platform
