import DeliveryCharts.Error
import DeliveryCharts.Stage.Header
import DeliveryCharts.Stage.Policy
import DeliveryCharts.Stage.Options

/-!
A stage of a pipeline: the fields that all types share, the fields of its own type, and the members
that no field claims, which are kept as they are.
-/

namespace DeliveryCharts.Stage

open Json (Fault)

/-- The fields of one type of stage: the keys that belong to them, and how they are read from and
written to the members of a stage. -/
structure Codec (σ : Type) where
  fields : List String
  decode : Members → Except Fault σ
  encode : σ → List (String × Json)

end DeliveryCharts.Stage

namespace DeliveryCharts

structure Stage (σ : Type) where
  header : Stage.Header
  policy : Stage.Policy
  options : Stage.Options
  spec : σ
  extra : Members

namespace Stage

open Json (Fault)

/-- The pipeline that a stage belongs to, as far as it is known when the stage's turn comes. -/
structure Context where
  application : String
  pipeline : String
  /-- Position of the stage, from 0. -/
  index : Nat
  /-- The stages before it, already resolved. -/
  resolved : List Members
  /-- Number of stages in the pipeline. -/
  total : Nat

def sharedFields : List String := Header.fields ++ Policy.fields ++ Options.fields

def Codec.claims (c : Codec σ) (key : String) : Bool := key ∈ sharedFields ++ c.fields

def Codec.read (c : Codec σ) (raw : Members) : Except Fault (Stage σ) := do
  let header ← Header.decode raw
  let policy ← Policy.decode raw
  let options ← Options.decode raw
  let spec ← c.decode raw
  return { header, policy, options, spec, extra := raw.filter fun m ↦ !c.claims m.1 }

def Codec.write (c : Codec σ) (s : Stage σ) : Members :=
  Members.ofList (s.header.encode ++ s.policy.encode ++ s.options.encode ++ c.encode s.spec ++
    s.extra)

/-- Where a stage stands, for messages. -/
def Context.place (ctx : Context) : String :=
  s!"stage {ctx.index + 1} of pipeline '{ctx.pipeline}'"

def Context.lift (ctx : Context) (r : Except Fault α) : Except Error α :=
  r.mapError fun e ↦ .decode ctx.place e.message

end Stage

end DeliveryCharts
