import DeliveryCharts.Diff.Hunk
import DeliveryCharts.Manifest.Set
import DeliveryCharts.Platform.Client

/-!
Bringing the platform in line with compiled objects. Both sides are compared as canonical JSON: the
platform's copy is decoded first, which drops what the platform adds.
-/

namespace DeliveryCharts.Platform

open Manifest (Compiled ManifestSet)
open Text (Bytes)

structure Options where
  /-- Only report, never save. -/
  dryRun : Bool := false
  /-- Show how objects change. -/
  showDiff : Bool := false
  deriving DecidableEq, Repr

namespace Options

def plan : Options := ⟨true, true⟩

def apply (showDiff : Bool) : Options := ⟨false, showDiff⟩

end Options

inductive Outcome where
  | new
  | changed
  | unchanged
  deriving DecidableEq, Repr

structure Report where
  object : Object
  outcome : Outcome
  diff : Option Diff
  saved : Bool
  deriving DecidableEq, Repr

/-- Kept lines around each change. -/
def diffContext : Nat := 3

/-- The canonical text of what the platform has stored for an object. -/
def storedText (c : Compiled) (payload : Bytes) : Except Error String :=
  match c with
  | .application _ => (Manifest.Application.ofPlatform payload).map fun a ↦ a.toJson.canonicalText
  | .pipeline _ => (Manifest.Pipeline.ofPlatform payload).map fun p ↦ p.toJson.canonicalText

/-- How an object compares with the platform's copy of it. -/
def compare (existing : Option String) (compiled : String) : Outcome :=
  match existing with
  | none => .new
  | some old => if old = compiled then .unchanged else .changed

def diffOf (o : Options) (existing : Option String) (compiled : String) : Option Diff :=
  match existing with
  | none => none
  | some old =>
    if old ≠ compiled ∧ o.showDiff then some (.ofTexts diffContext old compiled) else none

namespace Client

variable {σ : Type}

def existing (client : Client σ) (c : Compiled) : Request σ (Option String) := do
  match ← client.get (.ofCompiled c) with
  | none => return none
  | some payload =>
    match storedText c payload with
    | .ok text => return some text
    | .error e => throw (.core e)

def reconcile (client : Client σ) (o : Options) (c : Compiled) : Request σ Report := do
  let object := Object.ofCompiled c
  let compiled := c.canonicalText
  let existing ← client.existing c
  let outcome := compare existing compiled
  let saved := !o.dryRun && outcome ≠ .unchanged
  if saved then client.save object (some (Text.utf8String compiled))
  return { object, outcome, diff := diffOf o existing compiled, saved }

/-- Applications first; the first error ends the run. -/
def reconcileAll (client : Client σ) (o : Options) (s : ManifestSet) : Request σ (List Report) :=
  s.objects.mapM (client.reconcile o)

/-- Pipelines first, then their applications. -/
def deletionOrder (s : ManifestSet) : List Object :=
  s.pipelines.map (fun m ↦ .ofCompiled (.pipeline m)) ++
    s.applications.map fun m ↦ .ofCompiled (.application m)

def deleteAll (client : Client σ) (s : ManifestSet) : Request σ (List (Object × Deletion)) :=
  (deletionOrder s).mapM fun object ↦ do return (object, ← client.delete object)

end Client

end DeliveryCharts.Platform
