import DeliveryCharts.Coerce
import DeliveryCharts.Record

/-!
What happens when a stage fails. A user picks one of four phrases; the platform wants three flags,
which always follow from the phrase.
-/

namespace DeliveryCharts.Stage

open Json (Fault)
open Record (field)

inductive OnFailure where
  | haltPipeline
  | haltBranch
  | haltBranchFailPipeline
  | ignore
  deriving DecidableEq, Repr

namespace OnFailure

def phrase : OnFailure → String
  | haltPipeline => "halt the entire pipeline"
  | haltBranch => "halt this branch of the pipeline"
  | haltBranchFailPipeline => "halt this branch and fail the pipeline once other branches complete"
  | ignore => "ignore the failure"

/-- A phrase that is missing or unknown halts the pipeline. -/
def ofPhrase : Option String → OnFailure
  | none => haltPipeline
  | some s =>
    let s := Text.trim s
    if s = haltBranch.phrase then haltBranch
    else if s = haltBranchFailPipeline.phrase then haltBranchFailPipeline
    else if s = ignore.phrase then ignore
    else haltPipeline

/-- Go on with the pipeline. -/
def continues : OnFailure → Bool
  | ignore => true
  | _ => false

/-- Fail the pipeline at once. -/
def fails : OnFailure → Bool
  | haltPipeline => true
  | _ => false

/-- Complete the other branches and fail then. -/
def completes : OnFailure → Bool
  | haltBranchFailPipeline => true
  | _ => false

end OnFailure

structure Policy where
  ifStageFails : Option String := none
  continuePipeline : Bool := false
  failPipeline : Bool := false
  completeOthers : Bool := false
  deriving DecidableEq, Repr

namespace Policy

def fields : List String :=
  ["ifStageFails", "continuePipeline", "failPipeline", "completeOtherBranchesThenFail"]

def decode (ms : Members) : Except Fault Policy := do
  let completeOthers ← field ms "completeOtherBranchesThenFail" false Coerce.boolean
  let continuePipeline ← field ms "continuePipeline" false Coerce.boolean
  let failPipeline ← field ms "failPipeline" false Coerce.boolean
  let ifStageFails ← field ms "ifStageFails" none Coerce.optString
  return { ifStageFails, continuePipeline, failPipeline, completeOthers }

def ofJson : Json → Except Fault Policy := Record.read .document "FailPolicy" fields decode

def encode (p : Policy) : List (String × Json) :=
  Record.present "ifStageFails" .str p.ifStageFails ++
    [("continuePipeline", .bool p.continuePipeline), ("failPipeline", .bool p.failPipeline),
      ("completeOtherBranchesThenFail", .bool p.completeOthers)]

/-- The flags follow from the phrase, and a phrase that was given is written in its normal form. -/
def apply (p : Policy) : Policy :=
  let choice := OnFailure.ofPhrase p.ifStageFails
  { ifStageFails := p.ifStageFails.map fun _ ↦ choice.phrase
    continuePipeline := choice.continues
    failPipeline := choice.fails
    completeOthers := choice.completes }

end Policy

end DeliveryCharts.Stage
