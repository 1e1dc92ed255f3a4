import DeliveryCharts.Chart.Render
import DeliveryCharts.Platform.Client

/-!
Failures as the program reports them: a category, which decides the exit code, a text, and help.
-/

namespace DeliveryCharts.Cli

inductive Category where
  | validation
  | template
  | chart
  | platform
  | io
  | usage
  | broken
  deriving DecidableEq, Repr

namespace Category

/-- A program that breaks down leaves with a code that stands for no failure. -/
def exitCode : Category → Nat
  | validation => 2
  | template => 3
  | chart => 4
  | platform => 1
  | io => 5
  | usage => 64
  | broken => 101

def heading : Category → String
  | validation => "Validation failed: "
  | chart => "Chart error: "
  | platform => "Platform error: "
  | io => "IO error: "
  | template => ""
  | usage => ""
  | broken => ""

end Category

structure Failure where
  category : Category
  detail : String
  help : Option String := none
  deriving DecidableEq, Repr

namespace Failure

def text (f : Failure) : String := f.category.heading ++ f.detail

def exitCode (f : Failure) : Nat := f.category.exitCode

def chartHelp : String := "A chart is a directory with Chart.yaml, values.yaml and templates/"

def kindHelp : String :=
  "Supported kinds are Application and Pipeline, with apiVersion " ++
    Manifest.Kind.application.apiVersion

def stageHelp : String :=
  "Known stage types: " ++ Text.joinStrings ", " Stage.Registry.builtin.types

def ofError (e : Error) : Failure :=
  match e with
  | .chartNotFound _ => ⟨.chart, e.message, some chartHelp⟩
  | .chartFileMissing _ => ⟨.chart, e.message, some chartHelp⟩
  | .chartNameEmpty _ => ⟨.chart, e.message, some chartHelp⟩
  | .chartUnreadable _ => ⟨.chart, e.message, some chartHelp⟩
  | .noValuesSources =>
    ⟨.usage, e.message, some "Pass -f/--values or --set, or keep the chart's values.yaml"⟩
  | .unknownKind _ => ⟨.validation, e.message, some kindHelp⟩
  | .apiVersionMismatch _ _ _ => ⟨.validation, e.message, some kindHelp⟩
  | .unknownStageType _ _ _ => ⟨.validation, e.message, some stageHelp⟩
  | e => ⟨if e.isFile then .io else .validation, e.message, none⟩

def ofRender : RenderFailure → Failure
  | .template p => ⟨.template, p.message, none⟩
  | .unreportable _ => ⟨.broken, "", none⟩
  | .fullRender template cause =>
    let f := ofError cause
    if f.category = .validation then { f with detail := s!"{template}: {f.detail}" } else f
  | .io f => ⟨.io, f.message, none⟩

def ofPlatform (f : Platform.Failure) : Failure :=
  let report := fun help ↦ Failure.mk .platform f.message help
  match f with
  | .core e => ofError e
  | .applicationMissing _ =>
    report (some ("Create the application first: put its Application manifest next to the " ++
      "pipeline"))
  | .renameNotSupported _ => report (some "Delete the old pipeline, then apply the renamed one")
  | .spawn _ _ => report (some "Set --spin-bin or SPINFORGE_SPIN_BIN")
  | _ => report none

end Failure

end DeliveryCharts.Cli
