import DeliveryCharts.Files.Tree
import DeliveryCharts.Platform.Client

/-!
A platform in memory. As on a real one, a pipeline can be saved only where its application is, and
an application is deleted together with its pipelines.
-/

namespace DeliveryCharts.Platform

open Text (Bytes)

/-- Objects with their JSON, each object once. -/
abbrev Objects := List (Object × Bytes)

namespace Objects

def get? (s : Objects) (o : Object) : Option Bytes := s.lookup o

def contains (s : Objects) (o : Object) : Bool := (s.get? o).isSome

def erase (s : Objects) (o : Object) : Objects := s.filter fun e ↦ e.1 ≠ o

def insert (s : Objects) (o : Object) (payload : Bytes) : Objects := (o, payload) :: s.erase o

/-- Without the pipelines of an application. -/
def erasePipelines (s : Objects) (app : String) : Objects :=
  s.filter fun e ↦
    match e.1 with
    | .pipeline owner _ => owner ≠ app
    | .application _ => true

end Objects

/-- The objects of the platform, and how many requests of each kind there were. -/
structure Store where
  objects : Objects := []
  gets : Nat := 0
  saves : Nat := 0
  deletes : Nat := 0
  deriving DecidableEq, Repr

namespace Store

def insert (s : Store) (o : Object) (payload : Bytes) : Store :=
  { s with objects := s.objects.insert o payload }

def resetCounts (s : Store) : Store := { objects := s.objects }

def hasOwner (s : Store) : Object → Bool
  | .application _ => true
  | .pipeline app _ => s.objects.contains (.application app)

/-- The objects without one that is stored, and what is deleted with it. -/
def without (s : Store) (o : Object) : Objects :=
  match o with
  | .application name => (s.objects.erase o).erasePipelines name
  | .pipeline _ _ => s.objects.erase o

def client : Client Store where
  get o := do
    modify fun s ↦ { s with gets := s.gets + 1 }
    return (← get).objects.get? o
  save o spec := do
    modify fun s ↦ { s with saves := s.saves + 1 }
    if !(← get).hasOwner o then throw (.applicationMissing o)
    match spec with
    | none => throw (.io FileFault.missing.message)
    | some payload => modify (·.insert o payload)
  delete o := do
    modify fun s ↦ { s with deletes := s.deletes + 1 }
    let s ← get
    if !s.objects.contains o then return .absent
    set { s with objects := s.without o }
    return .deleted

end Store

end DeliveryCharts.Platform
