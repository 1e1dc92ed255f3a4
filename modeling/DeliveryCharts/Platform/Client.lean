import DeliveryCharts.Platform.Object
import DeliveryCharts.Text.Utf8

/-!
What the program asks of a platform. An object that is not there is no error, neither where it is
read nor where it is deleted.
-/

namespace DeliveryCharts.Platform

open Text (Bytes)

/-- Why a request fails. -/
inductive Failure where
  | notFound (object : Object)
  | applicationMissing (object : Object)
  | renameNotSupported (object : Object)
  | throttled (object : Object)
  | command (command output : String)
  | spawn (program cause : String)
  | io (cause : String)
  | core (e : Error)
  deriving DecidableEq, Repr

namespace Failure

def isNotFound : Failure → Bool
  | notFound _ => true
  | _ => false

def message : Failure → String
  | notFound o => s!"{o.describe} not found"
  | applicationMissing o =>
    s!"cannot act on {o.describe}: application '{o.owner}' does not exist"
  | renameNotSupported o => s!"renaming an existing pipeline is not supported ({o.describe})"
  | throttled o => s!"request for {o.describe} repeated too quickly, try again later"
  | command c output => "`" ++ c ++ "` failed: " ++ output
  | spawn program cause =>
    s!"failed to run '{program}': {cause}\nHint: install the spin CLI or point --spin-bin at it"
  | io cause => s!"IO error: {cause}"
  | core e => e.message

end Failure

inductive Deletion where
  | deleted
  | absent
  deriving DecidableEq, Repr

/-- Requests change the state of the platform also where they fail. -/
abbrev Request (σ : Type) := ExceptT Failure (StateM σ)

structure Client (σ : Type) where
  get : Object → Request σ (Option Bytes)
  /-- Creates or updates an object from a file with its JSON, which may be missing. -/
  save : Object → Option Bytes → Request σ Unit
  delete : Object → Request σ Deletion

end DeliveryCharts.Platform
