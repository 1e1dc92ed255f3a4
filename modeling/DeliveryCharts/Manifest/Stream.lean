import DeliveryCharts.Manifest.Set
import DeliveryCharts.Values.Basic
import DeliveryCharts.Yaml.Writer

/-!
Manifests as a stream of YAML documents: reading compiles each of them, and what is written reads
back as the same objects.
-/

namespace DeliveryCharts.Manifest

/-- Compiles every document of a stream. -/
def loadText (r : Stage.Registry) (text : String) : Except Error ManifestSet :=
  compileAll r ((Yaml.stream text).map Error.ofYaml)

def Compiled.toYaml (c : Compiled) : String := Yaml.render c.toJson

/-- All objects, applications first, with a line of hyphens between neighbours. -/
def ManifestSet.toYaml (s : ManifestSet) : String :=
  Text.joinStrings "---\n" (s.objects.map Compiled.toYaml)

end DeliveryCharts.Manifest
