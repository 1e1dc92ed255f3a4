import DeliveryCharts.Coerce
import DeliveryCharts.Record

/-!
Options that every type of stage accepts: execution windows, notifications and toggles.
-/

namespace DeliveryCharts.Stage

open Json (Fault)
open Record (field)

/-- A range of the clock of 24 hours. -/
structure TimeRange where
  startHour : Int := 0
  startMin : Int := 0
  endHour : Int := 0
  endMin : Int := 0
  deriving DecidableEq, Repr

namespace TimeRange

def decode (ms : Members) : Except Fault TimeRange := do
  let endHour ← field ms "endHour" 0 Coerce.int
  let endMin ← field ms "endMin" 0 Coerce.int
  let startHour ← field ms "startHour" 0 Coerce.int
  let startMin ← field ms "startMin" 0 Coerce.int
  return { startHour, startMin, endHour, endMin }

def ofJson : Json → Except Fault TimeRange :=
  Record.read .buffer "TimeRange" ["startHour", "startMin", "endHour", "endMin"] decode

def toJson (t : TimeRange) : Json :=
  .ofMembers [("startHour", .ofInt t.startHour), ("startMin", .ofInt t.startMin),
    ("endHour", .ofInt t.endHour), ("endMin", .ofInt t.endMin)]

end TimeRange

structure Jitter where
  enabled : Bool := false
  minDelay : Option Int := none
  maxDelay : Option Int := none
  skipManual : Bool := false
  deriving DecidableEq, Repr

namespace Jitter

def decode (ms : Members) : Except Fault Jitter := do
  let enabled ← field ms "enabled" false Coerce.boolean
  let maxDelay ← field ms "maxDelay" none Coerce.optInt
  let minDelay ← field ms "minDelay" none Coerce.optInt
  let skipManual ← field ms "skipManual" false Coerce.boolean
  return { enabled, minDelay, maxDelay, skipManual }

def ofJson : Json → Except Fault Jitter :=
  Record.read .buffer "Jitter" ["enabled", "minDelay", "maxDelay", "skipManual"] decode

def toJson (j : Jitter) : Json :=
  .ofMembers ([("enabled", .bool j.enabled)] ++ Record.present "minDelay" .ofInt j.minDelay ++
    Record.present "maxDelay" .ofInt j.maxDelay ++ Record.flag "skipManual" j.skipManual)

end Jitter

structure ExecutionWindow where
  days : List Int := []
  whitelist : List TimeRange := []
  jitter : Option Jitter := none
  deriving DecidableEq, Repr

namespace ExecutionWindow

def decode (ms : Members) : Except Fault ExecutionWindow := do
  let days ← field ms "days" [] Coerce.intList
  let jitter ← field ms "jitter" none (Record.optional Jitter.ofJson)
  let whitelist ← field ms "whitelist" [] (Record.list TimeRange.ofJson)
  return { days, whitelist, jitter }

def ofJson : Json → Except Fault ExecutionWindow :=
  Record.read .buffer "ExecutionWindow" ["days", "whitelist", "jitter"] decode

def toJson (w : ExecutionWindow) : Json :=
  .ofMembers (Record.items "days" .ofInt w.days ++
    Record.items "whitelist" TimeRange.toJson w.whitelist ++
    Record.present "jitter" Jitter.toJson w.jitter)

end ExecutionWindow

/-- The condition under which a stage runs. -/
structure Enabled where
  expression : String := ""
  kind : String := "expression"
  deriving DecidableEq, Repr

namespace Enabled

def decode (ms : Members) : Except Fault Enabled := do
  let expression ← field ms "expression" "" Coerce.string
  let kind ← field ms "type" "expression" Coerce.string
  return { expression, kind }

def ofJson : Json → Except Fault Enabled :=
  Record.read .buffer "StageEnabled" ["expression", "type"] decode

def toJson (e : Enabled) : Json :=
  .ofMembers [("expression", .str e.expression), ("type", .str e.kind)]

end Enabled

structure MessageText where
  text : String := ""
  deriving DecidableEq, Repr

namespace MessageText

def decode (ms : Members) : Except Fault MessageText := do
  let text ← field ms "text" "" Coerce.string
  return { text }

def ofJson : Json → Except Fault MessageText := Record.read .buffer "MessageText" ["text"] decode

def toJson (m : MessageText) : Json := .ofMembers [("text", .str m.text)]

end MessageText

/-- The texts of a notification, under the keys by which the platform stores them. -/
structure NotificationMessage where
  complete : Option MessageText := none
  failed : Option MessageText := none
  starting : Option MessageText := none
  deriving DecidableEq, Repr

namespace NotificationMessage

/-- Each key has a second spelling; only one of the two may be used. -/
def decode (ms : Members) : Except Fault NotificationMessage := do
  let read := Record.optional MessageText.ofJson
  let complete ← field ms "stage.complete" none read
  let failed ← field ms "stage.failed" none read
  let starting ← field ms "stage.starting" none read
  let complete ← Record.eitherField ms "stage.complete" "stageComplete" complete read
  let failed ← Record.eitherField ms "stage.failed" "stageFailed" failed read
  let starting ← Record.eitherField ms "stage.starting" "stageStarting" starting read
  return { complete, failed, starting }

def ofJson : Json → Except Fault NotificationMessage :=
  Record.read .buffer "NotificationMessage" ["stage.complete", "stage.failed", "stage.starting"]
    decode

def toJson (m : NotificationMessage) : Json :=
  .ofMembers (Record.present "stage.complete" MessageText.toJson m.complete ++
    Record.present "stage.failed" MessageText.toJson m.failed ++
    Record.present "stage.starting" MessageText.toJson m.starting)

end NotificationMessage

structure Notification where
  address : String := ""
  level : Option String := none
  kind : String := ""
  events : List String := []
  message : Option NotificationMessage := none
  deriving DecidableEq, Repr

namespace Notification

def decode (ms : Members) : Except Fault Notification := do
  let address ← field ms "address" "" Coerce.string
  let level ← field ms "level" none Coerce.optString
  let message ← field ms "message" none (Record.optional NotificationMessage.ofJson)
  let kind ← field ms "type" "" Coerce.string
  let events ← field ms "when" [] Coerce.stringList
  return { address, level, kind, events, message }

def ofJson : Json → Except Fault Notification :=
  Record.read .buffer "Notification" ["address", "level", "type", "when", "message"] decode

def toJson (n : Notification) : Json :=
  .ofMembers ([("address", .str n.address)] ++ Record.present "level" .str n.level ++
    [("type", .str n.kind)] ++ Record.items "when" .str n.events ++
    Record.present "message" NotificationMessage.toJson n.message)

end Notification

structure Options where
  restrictExecution : Bool := false
  executionWindow : Option ExecutionWindow := none
  skipWindowText : Option String := none
  timeoutMs : Option Int := none
  failOnFailedExpressions : Bool := false
  enabled : Option Enabled := none
  sendNotifications : Bool := false
  notifications : List Notification := []
  comments : Option String := none
  deriving DecidableEq, Repr

namespace Options

def fields : List String :=
  ["restrictExecutionDuringTimeWindow", "restrictedExecutionWindow", "skipWindowText",
    "stageTimeoutMs", "failOnFailedExpressions", "stageEnabled", "sendNotifications",
    "notifications", "comments"]

def decode (ms : Members) : Except Fault Options := do
  let comments ← field ms "comments" none Coerce.optString
  let failOnFailedExpressions ← field ms "failOnFailedExpressions" false Coerce.boolean
  let notifications ← field ms "notifications" [] (Record.list Notification.ofJson)
  let restrictExecution ← field ms "restrictExecutionDuringTimeWindow" false Coerce.boolean
  let executionWindow ←
    field ms "restrictedExecutionWindow" none (Record.optional ExecutionWindow.ofJson)
  let sendNotifications ← field ms "sendNotifications" false Coerce.boolean
  let skipWindowText ← field ms "skipWindowText" none Coerce.optString
  let enabled ← field ms "stageEnabled" none (Record.optional Enabled.ofJson)
  let timeoutMs ← field ms "stageTimeoutMs" none Coerce.optInt
  return {
    restrictExecution, executionWindow, skipWindowText, timeoutMs, failOnFailedExpressions
    enabled, sendNotifications, notifications, comments }

def encode (o : Options) : List (String × Json) :=
  Record.flag "restrictExecutionDuringTimeWindow" o.restrictExecution ++
    Record.present "restrictedExecutionWindow" ExecutionWindow.toJson o.executionWindow ++
    Record.present "skipWindowText" .str o.skipWindowText ++
    Record.present "stageTimeoutMs" .ofInt o.timeoutMs ++
    Record.flag "failOnFailedExpressions" o.failOnFailedExpressions ++
    Record.present "stageEnabled" Enabled.toJson o.enabled ++
    Record.flag "sendNotifications" o.sendNotifications ++
    Record.items "notifications" Notification.toJson o.notifications ++
    Record.present "comments" .str o.comments

end Options

end DeliveryCharts.Stage
