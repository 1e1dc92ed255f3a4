import DeliveryCharts.Platform.Client
import DeliveryCharts.Text.Blank
import DeliveryCharts.Text.Casing

/-!
What the message of a failed request says about its cause.
-/

namespace DeliveryCharts.Platform

/-- The line starts with a status: the code alone, or in front of a blank or a colon. -/
def startsWithStatus (code line : List Char) : Bool :=
  match Text.dropWord? code (Text.trimStartChars line) with
  | none => false
  | some [] => true
  | some (c :: _) => Text.isBlank c || c == ':'

def hasStatus (code : String) (message : List Char) : Bool :=
  (Text.lines message).any (startsWithStatus code.toList)

def mentions (words : String) (message : List Char) : Bool := Text.occurs words.toList message

/-- The cause of a failure, from the message in lower case. A platform that is asked too often
answers with a status of its own, which is no statement about the object. -/
def classify (o : Object) (command message : String) : Failure :=
  let lower := Text.lowerChars message.toList
  if mentions "unhandled response 404" lower || mentions "unhandled response 403" lower then
    .throttled o
  else if hasStatus "404" lower || mentions "not found" lower ||
      mentions "does not exist" lower then
    .notFound o
  else if hasStatus "403" lower then .applicationMissing o
  else if hasStatus "400" lower && o.kind = .pipeline then .renameNotSupported o
  else .command command message

end DeliveryCharts.Platform
