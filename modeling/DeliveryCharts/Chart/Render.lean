import DeliveryCharts.Chart
import DeliveryCharts.Manifest.Stream
import DeliveryCharts.Template.Problem
import DeliveryCharts.Template.Read.Stmt
import DeliveryCharts.Template.Render

/-!
Rendering the templates of a chart.
-/

namespace DeliveryCharts

/-- Why nothing is rendered. A fault whose suggestion would need a cut inside of a character is not
reported at all. -/
inductive RenderFailure where
  | template (p : Template.Problem)
  | unreportable (c : Template.Hint.BadCut)
  | fullRender (template : String) (cause : Error)
  | io (f : FileFault)
  deriving DecidableEq, Repr

namespace RenderFailure

def ofFault (template source : String) (f : Template.Fault) : RenderFailure :=
  match Template.Problem.ofFault template source f with
  | .ok p => .template p
  | .error c => .unreportable c

end RenderFailure

/-- Undefined values are faults when strict; the registry knows the stages of a full rendering. -/
structure Renderer where
  strict : Bool := true
  registry : Stage.Registry := .builtin

/-- A template with its text. -/
structure TemplateFile where
  name : String
  text : String
  deriving DecidableEq, Repr

def TemplateFile.read (t : TemplateFile) : Except RenderFailure Template.Source :=
  (Template.Source.read t.name t.text).mapError (RenderFailure.ofFault t.name t.text)

namespace Renderer

open Template (Source Value)

/-- The text of a template that can load the given ones. -/
def run (r : Renderer) (sources : List Source) (names : List (String × Value))
    (file : TemplateFile) (source : Source) : Except RenderFailure String :=
  (source.render sources r.strict names).mapError (RenderFailure.ofFault file.name file.text)

/-- Renders a template that stands alone. -/
def renderText (r : Renderer) (file : TemplateFile) (values : Values) :
    Except RenderFailure String := do
  let source ← file.read
  r.run [source] [("values", .ofJson values.tree)] file source

end Renderer

/-- The rendered templates of a chart that are not blank, in the order of their names. -/
structure RenderedChart where
  templates : List TemplateFile
  deriving DecidableEq, Repr

namespace RenderedChart

def isEmpty (r : RenderedChart) : Bool := r.templates.isEmpty

def get? (r : RenderedChart) (name : String) : Option String :=
  (r.templates.find? (·.name == name)).map TemplateFile.text

/-- All templates as one stream of YAML, each under its name. -/
def stream (r : RenderedChart) : String :=
  .join (r.templates.map fun t ↦ s!"---\n# Source: {t.name}\n{t.text}")

/-- Writes each template into the directory, and names the files. -/
def write (r : RenderedChart) (files : FileTree) (directory : String) :
    Except FileFault (FileTree × List String) := do
  let start ← files.makeDirectories directory
  r.templates.foldlM (fun (files, paths) t ↦ do
    let path := Files.Path.join directory t.name
    return (← files.write path (Text.utf8String t.text), paths ++ [path])) (start, [])

end RenderedChart

namespace Renderer

open Template (Source)

/-- Compiles the documents of a rendered template and writes them again. -/
def compile (r : Renderer) (name text : String) : Except RenderFailure String :=
  match Manifest.loadText r.registry text with
  | .ok set => .ok set.toYaml
  | .error e => .error (.fullRender name e)

def endLine (text : String) : String :=
  if text.toList.getLast? = some '\n' then text else text ++ "\n"

/-- The templates of a chart are all read before the first one is rendered. -/
def readTemplates (files : FileTree) (c : Chart) :
    Except RenderFailure (List (TemplateFile × Source)) :=
  (c.templates files).mapM fun name ↦ do
    let text ← (files.readText (Files.Path.join c.templatesPath name)).mapError .io
    let file : TemplateFile := ⟨name, text⟩
    return (file, ← file.read)

/-- Renders one template; nothing comes of a blank text. -/
def renderFile (r : Renderer) (sources : List Source) (names : List (String × Template.Value))
    (full : Bool) (file : TemplateFile) (source : Source) :
    Except RenderFailure (Option TemplateFile) := do
  let text ← r.run sources names file source
  let text ← if full then r.compile file.name text else pure text
  if (Text.trim text).isEmpty then return none
  return some ⟨file.name, endLine text⟩

/-- Renders the templates that are no helpers. A full rendering compiles their manifests. -/
def renderChart (r : Renderer) (files : FileTree) (c : Chart) (values : Values) (full : Bool) :
    Except RenderFailure RenderedChart := do
  let read ← readTemplates files c
  let names := [("values", .ofJson values.tree), ("chart", .ofJson c.metadata.toJson)]
  let shown := read.filter fun t ↦ !Chart.isHelper t.1.name
  let rendered ← shown.mapM fun t ↦ r.renderFile (read.map Prod.snd) names full t.1 t.2
  return ⟨rendered.filterMap id⟩

end Renderer

end DeliveryCharts
