import DeliveryCharts.Template.Operation
import DeliveryCharts.Text.Base64
import DeliveryCharts.Yaml.Writer

/-!
The filters for writing manifests.
-/

namespace DeliveryCharts.Template.Filter

/-- Every `---` line at the head is dropped. -/
def dropMarkers : Nat → List Char → List Char
  | 0, cs => cs
  | fuel + 1, cs =>
    match Text.dropWord? ['-', '-', '-', '\n'] cs with
    | some rest => dropMarkers fuel rest
    | none => cs

/-- A block of YAML without the line feed at its end. -/
def toyaml (v : Value) : Except Fault String := do
  let yaml := (Yaml.render (← v.toJson)).toList
  return .ofList (Text.trimEndChars (dropMarkers yaml.length yaml))

def tojson (v : Value) : Except Fault String := do return (← v.toJson).compact

def b64encode (s : String) : String :=
  .ofList ((Text.Base64.encode (Text.utf8String s)).map fun b ↦ .ofNat b.toNat)

/-- Blanks around the text do not count. -/
def b64decode (s : String) : Except Fault String :=
  match Text.Base64.decode (Text.utf8String (Text.trim s)) with
  | .error f => .error (.invalid s!"base64 decode error: {f.message}")
  | .ok bytes =>
    match Text.decode bytes with
    | .ok cs => .ok (.ofList cs)
    | .error d => .error (.invalid s!"UTF-8 decode error: {d.message}")

/-- In double quotes; first every backslash, then every quote gets a backslash before it. -/
def quote (v : Value) : String :=
  let text := Text.replace ['\\'] ['\\', '\\'] v.toText.toList
  .ofList ('"' :: Text.replace ['"'] ['\\', '"'] text ++ ['"'])

/-- In single quotes; a quote is written twice. -/
def squote (v : Value) : String :=
  .ofList ('\'' :: Text.replace ['\''] ['\'', '\''] v.toText.toList ++ ['\''])

def indentLine (spaces : Nat) (line : List Char) : List Char :=
  if line.isEmpty then [] else List.replicate spaces ' ' ++ line

def indentChars (cs : List Char) (spaces : Nat) : List Char :=
  Text.join ['\n'] ((Text.lines cs).map (indentLine spaces))

/-- Every line that is not empty is indented. -/
def indent (s : String) (spaces : Nat) : String := .ofList (indentChars s.toList spaces)

/-- A line feed, and the indented text. -/
def nindent (s : String) (spaces : Nat) : String := .ofList ('\n' :: indentChars s.toList spaces)

/-- Refuses values that are undefined, none or an empty text. -/
def required (v : Value) (message : Option String) : Except Fault Value :=
  if v.isUndefined || v.isNone then .error (.invalid (message.getD "required value is missing"))
  else if v.str? = some "" then .error (.invalid (message.getD "required value is empty"))
  else .ok v

def empty (v : Value) : Bool :=
  v.isUndefined || v.isNone || v.length? = some 0

def haskey (v : Value) (key : String) : Bool :=
  match v.attribute? key with
  | some w => !w.isUndefined
  | none => false

mutual

/-- Members that are there are merged in their place; anything but an object gives way. -/
def mergeInto : Json → Json → Json
  | .obj ms, .obj overlay => .obj (mergeMembersInto ms overlay)
  | _, overlay => overlay

def mergeMembersInto (ms : Members) : List (String × Json) → Members
  | [] => ms
  | (key, v) :: overlay =>
    if ms.contains key then
      mergeMembersInto (ms.map fun m ↦ if m.1 = key then (key, mergeInto m.2 v) else m) overlay
    else mergeMembersInto (ms.insert key v) overlay

end

def merge (base overlay : Value) : Except Fault Value := do
  let b ← base.toJson
  let o ← overlay.toJson
  return .ofJson (mergeInto b o)

def trunc (s : String) (length : Nat) : String := .ofList (s.toList.take length)

def trimPrefix (s before : String) : String :=
  match Text.dropWord? before.toList s.toList with
  | some rest => .ofList rest
  | none => s

def trimSuffix (s after : String) : String :=
  match Text.dropWord? after.toList.reverse s.toList.reverse with
  | some rest => .ofList rest.reverse
  | none => s

end DeliveryCharts.Template.Filter
