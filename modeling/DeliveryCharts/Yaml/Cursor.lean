/-!
A place in a YAML text: what follows, and the position that decides about indentation and keys.
-/

namespace DeliveryCharts.Yaml

/-- Why a text is no YAML, or holds what has no place in a JSON tree. -/
inductive Fault where
  | malformed
  | unknownAnchor
  | badTag
  | badKey
  | outOfRange
  | tooDeep
  | tooManyAliases
  | manyDocuments
  | noDocument
  deriving DecidableEq, Repr

structure Cursor where
  rest : List Char
  line : Nat := 0
  col : Nat := 0
  index : Nat := 0
  /-- A key or an entry of a block may start here. -/
  fresh : Bool := true
  deriving DecidableEq, Repr

/-- Line feed, carriage return, next line, line separator and paragraph separator. -/
def isBreak (c : Char) : Bool :=
  c == '\n' || c == '\r' || c == '\u0085' || c == '\u2028' || c == '\u2029'

def isSpaceOrTab (c : Char) : Bool := c == ' ' || c == '\t'

/-- Blank characters and breaks, at whose place a word ends. -/
def isGap (c : Char) : Bool := isSpaceOrTab c || isBreak c

/-- A word ends here: at a blank, a break or the end. -/
def endsWord : List Char → Bool
  | [] => true
  | c :: _ => isGap c

def startsBreak : List Char → Bool
  | [] => false
  | c :: _ => isBreak c

/-- Letters, digits, hyphen and underscore, in ASCII. -/
def isNameChar (c : Char) : Bool :=
  ('a' ≤ c && c ≤ 'z') || ('A' ≤ c && c ≤ 'Z') || ('0' ≤ c && c ≤ '9') || c == '_' || c == '-'

/-- Three hyphens or three points at the start of a line, alone. -/
def isMarker : List Char → Bool
  | '-' :: '-' :: '-' :: r => endsWord r
  | '.' :: '.' :: '.' :: r => endsWord r
  | _ => false

namespace Cursor

/-- Past some characters that are no breaks. -/
def advance (c : Cursor) (n : Nat) : Cursor :=
  { c with rest := c.rest.drop n, col := c.col + n, index := c.index + n }

/-- Past one break; a carriage return and a line feed are one. -/
def newline (c : Cursor) : Cursor :=
  let n := match c.rest with
    | '\r' :: '\n' :: _ => 2
    | _ => 1
  { c with rest := c.rest.drop n, line := c.line + 1, col := 0, index := c.index + n }

/-- The text that a break stands for. -/
def breakText (c : Cursor) : List Char :=
  match c.rest with
  | '\u2028' :: _ => ['\u2028']
  | '\u2029' :: _ => ['\u2029']
  | [] => []
  | _ => ['\n']

def atMarker (c : Cursor) : Bool := c.col == 0 && isMarker c.rest

/-- The document ends here. -/
def atEnd (c : Cursor) : Bool := c.rest.isEmpty || c.atMarker

/-- The head of a directive, which belongs to the next document. -/
def atDirective (c : Cursor) : Bool := c.col == 0 && c.rest.head? == some '%'

/-- No node starts here: the document ends, or a directive follows. -/
def atClose (c : Cursor) : Bool := c.atEnd || c.atDirective

def unfresh (c : Cursor) : Cursor := { c with fresh := false }

def spaces (c : Cursor) (p : Char → Bool) : Cursor :=
  c.advance (c.rest.takeWhile p).length

def dropComment (c : Cursor) : Cursor :=
  match c.rest with
  | '#' :: _ => c.spaces fun d ↦ !isBreak d
  | _ => c

/-- Past blanks, comments and breaks. Outside brackets a new line lets keys and entries start, and
tabs are no indentation. -/
def skip (inFlow : Bool) (c : Cursor) : Cursor := go c.rest.length c
where
  go : Nat → Cursor → Cursor
    | 0, c => c
    | fuel + 1, c =>
      let c := (c.spaces fun d ↦ d == ' ' || ((inFlow || !c.fresh) && d == '\t')).dropComment
      if startsBreak c.rest then go fuel { c.newline with fresh := c.fresh || !inFlow }
      else c

end Cursor

end DeliveryCharts.Yaml
