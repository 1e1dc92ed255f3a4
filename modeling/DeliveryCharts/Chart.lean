import DeliveryCharts.Files.Tree
import DeliveryCharts.Values.Arguments
import DeliveryCharts.Record

/-!
Charts: a directory with `Chart.yaml`, perhaps `values.yaml`, and templates.
-/

namespace DeliveryCharts

open Record (field)

def Error.ofFile (r : Except FileFault α) : Except Error α := r.mapError fun f ↦ .io f.message

namespace Chart

structure Metadata where
  apiVersion : String := ""
  description : String := ""
  name : String := ""
  version : String := ""
  deriving DecidableEq, Repr

namespace Metadata

def fields : List String := ["apiVersion", "description", "name", "version"]

def decode (ms : Members) : Except Json.Fault Metadata := do
  let apiVersion ← field ms "apiVersion" "" Coerce.string
  let description ← field ms "description" "" Coerce.string
  let name ← field ms "name" "" Coerce.string
  let version ← field ms "version" "" Coerce.string
  return { apiVersion, description, name, version }

def toJson (m : Metadata) : Json :=
  .obj [("apiVersion", .str m.apiVersion), ("description", .str m.description),
    ("name", .str m.name), ("version", .str m.version)]

/-- Nothing if the text is no YAML, or its fields are no scalars. -/
def ofYaml? (text : String) : Option Metadata :=
  match Yaml.single text >>= fun g ↦ g.pick fields with
  | .ok ms => (decode ms).toOption
  | .error _ => none

end Metadata

/-- A template that other templates use and that is not rendered itself. -/
def isHelper (name : String) : Bool := name.toList.head? = some '_'

end Chart

structure Chart where
  root : String
  metadata : Chart.Metadata
  deriving DecidableEq, Repr

namespace Chart

def templatesPath (c : Chart) : String := Files.Path.join c.root "templates"

def valuesPath (c : Chart) : String := Files.Path.join c.root "values.yaml"

def load (files : FileTree) (root : String) : Except Error Chart := do
  if !files.isDirectoryAt root then throw (.chartNotFound root)
  let path := Files.Path.join root "Chart.yaml"
  if !files.exists path then throw (.chartFileMissing root)
  let text ← Error.ofFile (files.readText path)
  match Metadata.ofYaml? text with
  | none => throw (.chartUnreadable path)
  | some metadata =>
    if (Text.trim metadata.name).isEmpty then throw (.chartNameEmpty path)
    return { root, metadata }

/-- The names of the templates, in their order. -/
def templates (files : FileTree) (c : Chart) : List String := files.filesIn c.templatesPath

end Chart

namespace Values

/-- Where the values of a chart come from, besides its defaults. -/
structure Sources where
  excludeDefaults : Bool := false
  files : List String := []
  arguments : List String := []

def Sources.isEmpty (s : Sources) : Bool := s.files.isEmpty && s.arguments.isEmpty

def ofFile (files : FileTree) (path : String) : Except Error Values := do
  ofYaml (← Error.ofFile (files.readText path))

/-- A file that was asked for is named where it cannot be read. -/
def ofNamedFile (files : FileTree) (path : String) : Except Error Values :=
  (ofFile files path).mapError fun
    | .io cause => .io s!"values file {path}: {cause}"
    | e => e

/-- The chart's defaults, then the files, then the arguments; what comes later wins. -/
def load (files : FileTree) (c : Chart) (s : Sources) : Except Error Values := do
  let useDefaults := !s.excludeDefaults && files.exists c.valuesPath
  if !useDefaults && s.isEmpty then throw .noValuesSources
  let defaults ← if useDefaults then ofFile files c.valuesPath else pure empty
  let layered ← s.files.foldlM (fun v path ↦ v.merge <$> ofNamedFile files path)
    (empty.merge defaults)
  if s.arguments.isEmpty then return layered
  return layered.merge (← ofArguments s.arguments)

end Values

end DeliveryCharts
