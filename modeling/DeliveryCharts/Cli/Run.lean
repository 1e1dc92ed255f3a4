import DeliveryCharts.Cli.Arguments
import DeliveryCharts.Cli.Display
import DeliveryCharts.Cli.Failure
import DeliveryCharts.Manifest.Load
import DeliveryCharts.Platform.Spin

/-!
The commands of the program, over the files below its working directory and a platform.
-/

namespace DeliveryCharts.Cli

open Manifest (ManifestSet)
open Platform (Client Object Options Spin)

/-- What a run finds: what the environment says, and the programs by their paths. -/
structure Environment (σ : Type) where
  spinBin : Option String := none
  spinConfig : Option String := none
  home : Option String := none
  /-- Where the spec of an object that is saved is put. -/
  specPath : String
  program : String → Platform.Program σ

/-- The files, the platform, and the lines printed so far. -/
structure Session (σ : Type) where
  files : FileTree
  platform : σ
  printed : String := ""

abbrev Run (σ : Type) := ExceptT Failure (StateM (Session σ))

namespace Run

variable {σ : Type}

def print (text : String) : Run σ Unit := modify fun s ↦ { s with printed := s.printed ++ text }

def printLines (lines : List String) : Run σ Unit := lines.forM fun l ↦ print (l ++ "\n")

def ask (m : Platform.Request σ α) : Run σ α := do
  let s ← get
  let (r, platform) := m.run s.platform
  set { s with platform }
  match r with
  | .ok a => return a
  | .error f => throw (.ofPlatform f)

def core (r : Except Error α) : Run σ α :=
  match r with
  | .ok a => return a
  | .error e => throw (.ofError e)

def render (r : Except RenderFailure α) : Run σ α :=
  match r with
  | .ok a => return a
  | .error f => throw (.ofRender f)

/-- The file that configures the program behind the platform. -/
def configPath (env : Environment σ) (i : Invocation) : Except Failure String :=
  match i.spinConfig <|> env.spinConfig, env.home with
  | some path, _ => .ok path
  | none, some home =>
    .ok (Files.Path.join (Files.Path.join home ".spinforge") "context-spin-config.yaml")
  | none, none =>
    .error ⟨.usage, "cannot locate the home directory for the default spin config",
      some "Pass --spin-config or set SPINFORGE_SPIN_CONFIG"⟩

def client (env : Environment σ) (i : Invocation) : Except Failure (Client σ) := do
  let path := (i.spinBin <|> env.spinBin).getD "spin"
  let spin : Spin := ⟨path, ← configPath env i, env.specPath⟩
  return spin.client (env.program path)

variable (env : Environment σ) (i : Invocation)

/-- Brings the platform in line with a set. About an empty set there is nothing to say. -/
def reconcileSet (set : ManifestSet) (o : Options) : Run σ Unit := do
  if !set.isEmpty then
    let c ← (client env i : Except Failure (Client σ))
    let reports ← ask (c.reconcileAll o set)
    printLines (Display.reports reports o.dryRun)

def deleteSet (set : ManifestSet) : Run σ Unit := do
  if !set.isEmpty then
    let c ← (client env i : Except Failure (Client σ))
    let deletions ← ask (c.deleteAll set)
    printLines (deletions.map fun d ↦ Display.deletion d.1 d.2)

def deleteObject (o : Object) : Run σ Unit := do
  let c ← (client env i : Except Failure (Client σ))
  let d ← ask (c.delete o)
  printLines [Display.deletion o d]

def load (path : String) : Run σ ManifestSet := do
  core (Manifest.loadPath .builtin (← get).files path)

def renderChart (r : Rendering) (full : Bool) : Run σ RenderedChart := do
  let files := (← get).files
  let chart ← core (Chart.load files r.chart)
  let values ← core (Values.load files chart r.sources)
  render (Renderer.renderChart {} files chart values full)

/-- The directory of rendered templates that are loaded and not kept. -/
def workingDirectory : String := "rendered"

/-- The set that a chart's rendered templates hold, as they are loaded from a directory of their
own. -/
def renderedSet (r : RenderedChart) : Except Failure ManifestSet := do
  match r.write .empty workingDirectory with
  | .error f => throw (.ofRender (.io f))
  | .ok (files, _) => (Manifest.loadPath .builtin files workingDirectory).mapError .ofError

def template (r : Rendering) (full : Bool) (output : Option String) : Run σ Unit := do
  let rendered ← renderChart r full
  match output with
  | none => print rendered.stream
  | some directory =>
    match rendered.write (← get).files directory with
    | .error f => throw (.ofRender (.io f))
    | .ok (files, paths) =>
      modify fun s ↦ { s with files }
      printLines (paths.map fun p ↦ "wrote " ++ p)

def command : Run σ Unit := do
  match i.command with
  | .plan file => reconcileSet env i (← load file) .plan
  | .apply file noPlan => reconcileSet env i (← load file) (.apply !noPlan)
  | .template r full output => template r full output
  | .install r dryRun noPlan =>
    let set ← (renderedSet (← renderChart r false) : Except Failure ManifestSet)
    reconcileSet env i set (if dryRun then .plan else .apply !noPlan)
  | .uninstall r =>
    let set ← (renderedSet (← renderChart r false) : Except Failure ManifestSet)
    deleteSet env i set
  | .deleteFile file => deleteSet env i (← load file)
  | .deleteApplication name => deleteObject env i (.application (Text.lower name))
  | .deletePipeline application name =>
    deleteObject env i (.pipeline (Text.lower application) name)
  | .deleteNothing =>
    throw ⟨.usage, "nothing to delete",
      some ("Use `delete -f <manifests>`, `delete application <name>` or " ++
        "`delete pipeline -a <app> <name>`")⟩

end Run

/-- How a run ends. -/
structure Ending (σ : Type) where
  exit : Nat
  session : Session σ
  failure : Option Failure := none

def versionText (words : List String) : String :=
  Text.joinStrings "-" ("spinforge" :: words) ++ " 0.2.0\n"

/-- Refused arguments end the run as manifests that are not valid do. -/
def run {σ : Type} (env : Environment σ) (files : FileTree) (platform : σ)
    (arguments : List String) : Ending σ :=
  let start : Session σ := { files, platform }
  match Invocation.ofArguments arguments with
  | .error (.version words) => ⟨0, { start with printed := versionText words }, none⟩
  | .error .help => ⟨0, start, none⟩
  | .error .refusal => ⟨2, start, none⟩
  | .ok i =>
    match (Run.command env i).run start with
    | (.ok _, s) => ⟨0, s, none⟩
    | (.error f, s) => ⟨f.exitCode, s, some f⟩

end DeliveryCharts.Cli
