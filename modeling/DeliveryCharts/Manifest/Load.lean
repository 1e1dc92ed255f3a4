import DeliveryCharts.Chart
import DeliveryCharts.Manifest.Stream

/-!
Loading manifests from files and from directories.
-/

namespace DeliveryCharts.Manifest

open Files

def isYamlName (name : String) : Bool :=
  match Path.extension? name with
  | some e => Text.asciiLower e.toList = ['y', 'a', 'm', 'l']
  | none => false

/-- The manifest files behind a path: the file itself, or those directly in the directory. -/
def discover (files : FileTree) (path : String) : Except Error (List String) :=
  if !files.exists path then .error (.manifestPathNotFound path)
  else if files.isFileAt path then
    if (Path.fileName? path).any isYamlName then .ok [path] else .error (.notYaml path)
  else .ok (((files.filesIn path).filter isYamlName).map (Path.join path))

/-- One stream of the texts: marked off from each other, but nothing in front of the first that is
not empty. -/
def joinTexts (texts : List String) : String :=
  texts.foldl (fun stream text ↦
    if stream.isEmpty then text else stream ++ "\n---\n" ++ text) ""

def readManifests (files : FileTree) (path : String) : Except Error String := do
  let paths ← discover files path
  return joinTexts (← paths.mapM fun p ↦ Error.ofFile (files.readText p))

def loadPath (r : Stage.Registry) (files : FileTree) (path : String) :
    Except Error ManifestSet := do
  loadText r (← readManifests files path)

end DeliveryCharts.Manifest
