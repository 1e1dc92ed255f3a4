import DeliveryCharts.Text.Alphanumeric
import DeliveryCharts.Text.Blank
import DeliveryCharts.Text.EditDistance
import DeliveryCharts.Text.Lines
import DeliveryCharts.Text.Utf8

/-!
Which name was meant by one that is unknown. The line of the fault is searched for the name, as far
as that is possible without reading it as a template.
-/

namespace DeliveryCharts.Template.Hint

/-- The filters that are suggested. -/
def filters : List String :=
  ["toyaml", "tojson", "b64encode", "b64decode", "quote", "squote", "nindent", "indent", "required",
    "empty", "haskey", "merge", "trunc", "trimprefix", "trimsuffix", "default", "lower", "upper",
    "title", "trim", "replace", "join", "length", "first", "last", "sort", "unique", "list",
    "items", "int", "float", "string", "urlencode"]

/-- The functions that are suggested. -/
def functions : List String :=
  ["fail", "dict", "list", "get", "coalesce", "ternary", "tostring", "toint", "artifact_id",
    "range", "namespace"]

def maxDistance : Nat := 2

def maxSuggestions : Nat := 3

/-- The nearest names, those as near as each other in alphabetic order; not the name itself. -/
def closest (name : String) (candidates : List String) : List String :=
  let scored := candidates.map fun c ↦ (Text.editDistance name.toList c.toList, c)
  let near := scored.filter fun p ↦ 0 < p.1 && p.1 ≤ maxDistance
  let ordered := near.mergeSort fun p q ↦ p.1 < q.1 || (p.1 == q.1 && p.2 ≤ q.2)
  (ordered.take maxSuggestions).map Prod.snd

def code (name : String) : String := "`" ++ name ++ "`"

def didYouMean (name : String) (candidates : List String) (what : String) : String :=
  match closest name candidates with
  | [] => s!"Unknown {what} {code name}"
  | names => "Did you mean " ++ Text.joinStrings " or " (names.map code) ++ "?"

/-- A text was to be cut inside of a character, or behind its end. -/
inductive BadCut where
  | insideCharacter
  deriving DecidableEq, Repr

/-- The text up to a byte, and the text from there on. -/
def cut (n : Nat) (cs : List Char) : Except BadCut (List Char × List Char) :=
  match Text.cutBytes? n cs with
  | some parts => .ok parts
  | none => .error .insideCharacter

theorem cut_eq_ok_iff {n : Nat} {cs before rest : List Char} :
    cut n cs = .ok (before, rest) ↔ cs = before ++ rest ∧ Text.utf8Length before = n := by
  rw [cut, ← Text.cutBytes?_eq_some_iff]
  cases Text.cutBytes? n cs <;> simp

theorem length_lt_of_cut {n : Nat} {cs before rest : List Char}
    (h : cut (n + 1) cs = .ok (before, rest)) : rest.length < cs.length := by
  obtain ⟨rfl, hlength⟩ := cut_eq_ok_iff.mp h
  have hne : before ≠ [] := by
    intro hnil
    rw [hnil] at hlength
    cases hlength
  have hpos := List.length_pos_iff.mpr hne
  rw [List.length_append]
  omega

/-- The word at the head of a text. -/
def leadingWord? (cs : List Char) : Except BadCut (Option String) :=
  let size := (Text.firstByte? (!Text.isWordChar ·) cs).getD (Text.utf8Length cs)
  if size = 0 then .ok none else (cut size cs).map fun parts ↦ some (.ofList parts.1)

/-- The first word at the head of a part that is none of the suggested filters. -/
def unknownAmong? : List (List Char) → Except BadCut (Option String)
  | [] => .ok none
  | part :: parts => do
    match ← leadingWord? (Text.trimStartChars part) with
    | some name => if filters.contains name then unknownAmong? parts else return some name
    | none => unknownAmong? parts

/-- The first word behind a bar that is none of the suggested filters. -/
def unknownFilter? (line : List Char) : Except BadCut (Option String) :=
  unknownAmong? ((Text.splitAll (· == '|') line).drop 1)

/-- One byte behind the start of the last character that does not belong to a word. -/
def wordStart (cs : List Char) : Nat :=
  match Text.lastByte? (!Text.isWordChar ·) cs with
  | some n => n + 1
  | none => 0

/-- A word that is called, unless it is a method or one of the suggested names. -/
def unknownName? (ahead word : List Char) : Option String :=
  let name := String.ofList word
  let isMethod := ahead.getLast? = some '.'
  if word.isEmpty || isMethod || functions.contains name || filters.contains name then none
  else some name

/-- The word in front of a call, if it is unknown. -/
def unknownCall? (before : List Char) : Except BadCut (Option String) :=
  (cut (wordStart before) before).map fun parts ↦ unknownName? parts.1 parts.2

/-- The first word before an opening parenthesis that is unknown. -/
def unknownFunction? (line : List Char) : Except BadCut (Option String) :=
  match Text.firstByte? (· == '(') line with
  | none => .ok none
  | some opening =>
    match (cut opening line).bind fun parts ↦ unknownCall? parts.1 with
    | .error e => .error e
    | .ok (some name) => .ok (some name)
    | .ok none =>
      match _h : cut (opening + 1) line with
      | .error e => .error e
      | .ok (_, rest) => unknownFunction? rest
termination_by line.length
decreasing_by exact length_lt_of_cut ‹_›

end DeliveryCharts.Template.Hint
