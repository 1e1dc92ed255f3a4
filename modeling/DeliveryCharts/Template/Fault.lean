/-!
Why a template cannot be read or rendered.
-/

namespace DeliveryCharts.Template

inductive FaultKind where
  | malformed
  | badEscape
  | undefined
  | invalidOperation
  | missingArgument
  | tooManyArguments
  | unknownFilter
  | unknownFunction
  | unknownTest
  | unknownMethod
  | unknownBlock
  | templateNotFound
  | badInclude
  | badBlock
  | cannotUnpack
  deriving DecidableEq, Repr

def FaultKind.label : FaultKind → String
  | malformed => "syntax error"
  | badEscape => "bad string escape"
  | undefined => "undefined variable"
  | invalidOperation => "invalid operation"
  | missingArgument => "missing argument"
  | tooManyArguments => "too many arguments"
  | unknownFilter => "unknown filter"
  | unknownFunction => "unknown function"
  | unknownTest => "unknown test"
  | unknownMethod => "unknown method"
  | unknownBlock => "unknown block"
  | templateNotFound => "template not found"
  | badInclude => "could not render include"
  | badBlock => "could not render block"
  | cannotUnpack => "cannot unpack"

/-- The line counts from 1 in the template where the fault arose; it is not known at first. -/
structure Fault where
  kind : FaultKind
  detail : Option String := none
  line : Option Nat := none
  deriving DecidableEq, Repr

namespace Fault

def undefined : Fault := ⟨.undefined, none, none⟩

def missingArgument : Fault := ⟨.missingArgument, none, none⟩

def tooManyArguments : Fault := ⟨.tooManyArguments, none, none⟩

def invalid (reason : String) : Fault := ⟨.invalidOperation, some reason, none⟩

def malformed (line : Option Nat) : Fault := ⟨.malformed, none, line⟩

def message (f : Fault) : String :=
  match f.detail with
  | some detail => s!"{f.kind.label}: {detail}"
  | none => f.kind.label

/-- The innermost place that knows its line counts. -/
def locate (line : Nat) (f : Fault) : Fault := { f with line := f.line <|> some line }

end Fault

end DeliveryCharts.Template
