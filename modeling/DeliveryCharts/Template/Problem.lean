import DeliveryCharts.Template.Fault
import DeliveryCharts.Template.Hint

/-!
Faults of templates as they are reported: with the place in the template and a suggestion.
-/

namespace DeliveryCharts.Template

inductive ProblemKind where
  | undefinedVariable
  | unknownFilter
  | unknownFunction
  | malformed
  | invalidOperation
  | other
  deriving DecidableEq, Repr

def FaultKind.problem : FaultKind → ProblemKind
  | undefined => .undefinedVariable
  | unknownFilter => .unknownFilter
  | unknownFunction => .unknownFunction
  | malformed => .malformed
  | invalidOperation => .invalidOperation
  | _ => .other

/-- A part of a text, in bytes. -/
structure Span where
  start : Nat
  length : Nat
  deriving DecidableEq, Repr

/-- A line without the line feeds and carriage returns at its end. -/
def bareLine (line : List Char) : List Char :=
  (line.reverse.dropWhile fun c ↦ c == '\n' || c == '\r').reverse

def spanFrom (start : Nat) : List (List Char) → Nat → Option Span
  | [], _ => none
  | _ :: _, 0 => none
  | line :: _, 1 => some ⟨start, Text.utf8Length (bareLine line)⟩
  | line :: rest, n + 2 => spanFrom (start + Text.utf8Length line) rest (n + 1)

/-- The line with this number, counted from 1. -/
def lineSpan (source : List Char) (number : Nat) : Option Span :=
  spanFrom 0 (Text.splitAfterFeeds source) number

structure Problem where
  kind : ProblemKind
  message : String
  template : String
  span : Option Span
  suggestion : Option String
  deriving DecidableEq, Repr

namespace Problem

def bracketHint : String :=
  "Check bracket matching: `\x7b\x7b \x7d\x7d` for expressions, `\x7b% %\x7d` for statements, " ++
    "`\x7b# #\x7d` for comments"

def valuesHint : String := "Chart values are available as `values` (lower case, plural)."

def defaultHint : String :=
  "Check the spelling, or give the value a fallback with `| default(...)`."

/-- What is suggested for a fault on the line, if the line is known. -/
def suggest (kind : ProblemKind) (line : Option (List Char)) : Except Hint.BadCut (Option String) :=
  match kind with
  | .undefinedVariable =>
    let misspelt := line.any fun l ↦
      Text.occurs "value.".toList l || Text.occurs "Values.".toList l
    .ok (some (if misspelt then valuesHint else defaultHint))
  | .unknownFilter => do
    let name ← match line with
      | some l => Hint.unknownFilter? l
      | none => pure none
    return name.map (Hint.didYouMean · Hint.filters "filter")
  | .unknownFunction => do
    let name ← match line with
      | some l => Hint.unknownFunction? l
      | none => pure none
    return name.map (Hint.didYouMean · Hint.functions "function")
  | .malformed => .ok (some bracketHint)
  | _ => .ok none

/-- The fault's line is taken for a line of the template that is rendered. -/
def ofFault (template source : String) (f : Fault) : Except Hint.BadCut Problem := do
  let kind := f.kind.problem
  let line := f.line.bind fun n ↦ (Text.lines source.toList)[n - 1]?
  return {
    kind
    message := f.message
    template
    span := f.line.bind (lineSpan source.toList)
    suggestion := ← suggest kind line }

end Problem

end DeliveryCharts.Template
