import DeliveryCharts.Manifest.Document

/-!
The objects of a stream of documents, by kind and in the order of the stream.
-/

namespace DeliveryCharts.Manifest

structure ManifestSet where
  applications : List ApplicationManifest := []
  pipelines : List PipelineManifest := []
  deriving DecidableEq

namespace ManifestSet

def isEmpty (s : ManifestSet) : Bool := s.applications.isEmpty && s.pipelines.isEmpty

def size (s : ManifestSet) : Nat := s.applications.length + s.pipelines.length

/-- Applications before pipelines. -/
def objects (s : ManifestSet) : List Compiled :=
  s.applications.map .application ++ s.pipelines.map .pipeline

def add (s : ManifestSet) : Option Compiled → ManifestSet
  | none => s
  | some (.application m) => { s with applications := s.applications ++ [m] }
  | some (.pipeline m) => { s with pipelines := s.pipelines ++ [m] }

end ManifestSet

/-- Compiles the trees of a stream, of which the first is at `position`. A tree that could not be
read is an error, and the first error ends the run. -/
def compileFrom (r : Stage.Registry) (s : ManifestSet) (position : Nat) :
    List (Except Error Json) → Except Error ManifestSet
  | [] => .ok s
  | d :: ds => do
    let tree ← d
    let compiled ← compileDocument r position tree
    compileFrom r (s.add compiled) (position + 1) ds

def compileAll (r : Stage.Registry) (documents : List (Except Error Json)) :
    Except Error ManifestSet := compileFrom r {} 0 documents

end DeliveryCharts.Manifest
