import DeliveryCharts.Stage.Basic

/-!
Stages that wait for a time.
-/

namespace DeliveryCharts.Stage

open Json (Fault)
open Record (field)

structure Wait where
  isNew : Bool := false
  skipWaitText : String := ""
  /-- In seconds. -/
  waitTime : Int := 0
  deriving DecidableEq, Repr

namespace Wait

def typeName : String := "wait"

def decode (ms : Members) : Except Fault Wait := do
  let isNew ← field ms "isNew" false Coerce.boolean
  let skipWaitText ← field ms "skipWaitText" "" Coerce.string
  let waitTime ← field ms "waitTime" 0 Coerce.int
  return { isNew, skipWaitText, waitTime }

def encode (w : Wait) : List (String × Json) :=
  Record.flag "isNew" w.isNew ++
    [("skipWaitText", .str w.skipWaitText), ("waitTime", .ofInt w.waitTime)]

def codec : Codec Wait where
  fields := ["isNew", "skipWaitText", "waitTime"]
  decode := decode
  encode := encode

end Wait

end DeliveryCharts.Stage
