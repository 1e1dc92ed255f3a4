import DeliveryCharts.Json.Printer
import DeliveryCharts.Text.Printable

/-!
Why a JSON text or a JSON tree is not what was asked for.
-/

namespace DeliveryCharts.Json

/-- What is wrong with a text that is no JSON. -/
inductive TextFault where
  | eofInList
  | eofInObject
  | eofInString
  | eofInValue
  | expectedColon
  | expectedListCommaOrEnd
  | expectedObjectCommaOrEnd
  | expectedWord
  | expectedValue
  | invalidEscape
  | invalidNumber
  | numberOutOfRange
  | invalidCodePoint
  | controlCharacter
  | keyNotString
  | loneSurrogate
  | trailingComma
  | trailingCharacters
  | endOfHexEscape
  | tooDeep
  deriving DecidableEq, Repr

def TextFault.message : TextFault → String
  | eofInList => "EOF while parsing a list"
  | eofInObject => "EOF while parsing an object"
  | eofInString => "EOF while parsing a string"
  | eofInValue => "EOF while parsing a value"
  | expectedColon => "expected `:`"
  | expectedListCommaOrEnd => "expected `,` or `]`"
  | expectedObjectCommaOrEnd => "expected `,` or `\x7d`"
  | expectedWord => "expected ident"
  | expectedValue => "expected value"
  | invalidEscape => "invalid escape"
  | invalidNumber => "invalid number"
  | numberOutOfRange => "number out of range"
  | invalidCodePoint => "invalid unicode code point"
  | controlCharacter => "control character (\\u0000-\\u001F) found while parsing a string"
  | keyNotString => "key must be a string"
  | loneSurrogate => "lone leading surrogate in hex escape"
  | trailingComma => "trailing comma"
  | trailingCharacters => "trailing characters"
  | endOfHexEscape => "unexpected end of hex escape"
  | tooDeep => "recursion limit exceeded"

/-- What was found where something else was expected. -/
inductive Found where
  | null
  | bool (b : Bool)
  | num (n : Number)
  | str (s : String)
  | sequence
  | map
  deriving DecidableEq

def Found.ofJson : Json → Found
  | .null => .null
  | .bool b => .bool b
  | .num n => .num n
  | .str s => .str s
  | .arr _ => .sequence
  | .obj _ => .map

def Found.text : Found → String
  | null => "null"
  | bool b => "boolean `" ++ .ofList (boolText b) ++ "`"
  | num (.int z) => "integer `" ++ Text.ofInt z ++ "`"
  | num (.float x) => "floating point `" ++ .ofList (numberText (.float x)) ++ "`"
  | str s => "string " ++ Text.debugString s
  | sequence => "sequence"
  | map => "map"

/-- Why a value does not decode: it is of another kind, a list for a record is too long, a field is
given twice, or a scalar is not of the kind that is coerced to. -/
inductive Fault where
  | invalidType (found : Found) (expected : String)
  | invalidLength (length : Nat) (expected : String)
  | duplicateField (name : String)
  | notCoercible (wanted : String) (value : Json)
  | text (fault : TextFault)
  deriving DecidableEq

def Fault.message : Fault → String
  | invalidType found expected => "invalid type: " ++ found.text ++ ", expected " ++ expected
  | invalidLength length expected =>
    "invalid length " ++ Text.ofNat length ++ ", expected " ++ expected
  | duplicateField name => "duplicate field `" ++ name ++ "`"
  | notCoercible wanted value => "expected " ++ wanted ++ ", got " ++ compact value
  | text fault => fault.message

end DeliveryCharts.Json
