import DeliveryCharts.Yaml.Value

/-!
The YAML text of a JSON tree, in block style. A text is written plain where it reads back as itself,
in single quotes where it would be read as something else, in double quotes where it holds
characters that have to be escaped, and as a literal block where it has several lines.
-/

namespace DeliveryCharts.Yaml.Writer

/-- Characters that stand for themselves everywhere. -/
def isPrintable (c : Char) : Bool :=
  let n := c.toNat
  n == 0x0A || (0x20 ≤ n && n ≤ 0x7E) || (0xA0 ≤ n && n ≤ 0xFFFD && n != 0xFEFF) || 0x10000 ≤ n

/-- Two neighbours, the first of which `p` holds of and the second `q`. -/
def hasPair (p q : Char → Bool) : List Char → Bool
  | a :: b :: cs => (p a && q b) || hasPair p q (b :: cs)
  | _ => false

def isSpace (c : Char) : Bool := c == ' '

/-- A character that says, at the head of a word, that no plain scalar follows. -/
def isIndicator (c : Char) : Bool :=
  c ∈ ['#', ',', '[', ']', '\x7b', '\x7d', '&', '*', '!', '|', '>', '\'', '"', '%', '@', '`']

/-- A colon that ends a word, or a number sign behind a blank. -/
def hasInnerIndicator : List Char → Bool
  | [] => false
  | c :: cs =>
    (c == ':' && endsWord cs) || (isGap c && cs.head? == some '#') || hasInnerIndicator cs

/-- Something in the text means more than itself where a plain scalar is expected. -/
def hasIndicator (cs : List Char) : Bool :=
  Text.startsWith cs ['-', '-', '-'] || Text.startsWith cs ['.', '.', '.'] ||
    (match cs with
    | [] => false
    | c :: r => isIndicator c || ((c == '?' || c == '-') && endsWord r)) ||
    hasInnerIndicator cs

def isMultiline (cs : List Char) : Bool := cs.any isBreak

/-- In single quotes a space must stand neither before nor behind a break. -/
def allowsSingle (cs : List Char) : Bool :=
  cs.all isPrintable && !hasPair isSpace isBreak cs && !hasPair isBreak isSpace cs

def allowsBlock (cs : List Char) : Bool :=
  cs.all isPrintable && !hasPair isSpace isBreak cs && cs.getLast? ≠ some ' '

def allowsPlain (cs : List Char) : Bool :=
  cs.all isPrintable && !isMultiline cs && cs.head? ≠ some ' ' && cs.getLast? ≠ some ' ' &&
    !hasIndicator cs

/-- Without quotes the text would be read as null, a boolean or a number, or taken for one. -/
def looksTyped (s : String) : Bool :=
  match plainValue s with
  | .ok (.str _) => hasLeadingZero s.toList
  | _ => true

inductive Style where
  | plain
  | single
  | double
  | literal
  deriving DecidableEq, Repr

def styleOf (s : String) : Style :=
  let cs := s.toList
  if cs.contains '\n' then if allowsBlock cs then .literal else .double
  else if !looksTyped s && allowsPlain cs then .plain
  else if allowsSingle cs then .single
  else .double

def spaces (n : Nat) : List Char := List.replicate n ' '

/-- The lines of a literal block are indented unless they are empty. -/
def indented (indent : Nat) (atStart : Bool) : List Char → List Char
  | [] => []
  | c :: cs =>
    if isBreak c then c :: indented indent true cs
    else (if atStart then spaces indent else []) ++ c :: indented indent false cs

/-- What becomes of the breaks at the end: none, one, or all are kept. -/
def chompMark (cs : List Char) : List Char :=
  match cs.reverse with
  | [] => ['-']
  | c :: r =>
    if !isBreak c then ['-']
    else
      match r with
      | [] => ['+']
      | d :: _ => if isBreak d then ['+'] else []

/-- A literal block; its indentation is marked where the text starts with a space or a break. -/
def literal (indent : Nat) (cs : List Char) : List Char :=
  let mark := if cs.head?.any (fun c ↦ isSpace c || isBreak c) then ['2'] else []
  '|' :: mark ++ chompMark cs ++ '\n' :: indented indent true cs

/-- Behind a break, what follows is indented, the closing quote too. -/
def singleBody (indent : Nat) (behindBreak : Bool) : List Char → List Char
  | [] => if behindBreak then spaces indent else []
  | c :: cs =>
    if isBreak c then c :: singleBody indent true cs
    else
      (if behindBreak then spaces indent else []) ++
        (if c == '\'' then ['\'', '\''] else [c]) ++ singleBody indent false cs

def single (indent : Nat) (cs : List Char) : List Char :=
  '\'' :: singleBody indent false cs ++ ['\'']

def hexUpper (width n : Nat) : List Char :=
  (Text.padded width (Text.digits 16 n)).map Char.toUpper

def escapeChar (c : Char) : List Char :=
  match c with
  | '\x00' => ['\\', '0']
  | '\x07' => ['\\', 'a']
  | '\x08' => ['\\', 'b']
  | '\t' => ['\\', 't']
  | '\n' => ['\\', 'n']
  | '\x0b' => ['\\', 'v']
  | '\x0c' => ['\\', 'f']
  | '\r' => ['\\', 'r']
  | '\x1b' => ['\\', 'e']
  | '"' => ['\\', '"']
  | '\\' => ['\\', '\\']
  | '\u0085' => ['\\', 'N']
  | '\u2028' => ['\\', 'L']
  | '\u2029' => ['\\', 'P']
  | c =>
    if isPrintable c then [c]
    else if c.toNat ≤ 0xFF then '\\' :: 'x' :: hexUpper 2 c.toNat
    else if c.toNat ≤ 0xFFFF then '\\' :: 'u' :: hexUpper 4 c.toNat
    else '\\' :: 'U' :: hexUpper 8 c.toNat

def double (cs : List Char) : List Char := '"' :: cs.flatMap escapeChar ++ ['"']

def textOf (indent : Nat) (s : String) : List Char :=
  match styleOf s with
  | .plain => s.toList
  | .single => single indent s.toList
  | .double => double s.toList
  | .literal => literal indent s.toList

/-- A text with the end of its line; a literal block may have it already. -/
def textLine (indent : Nat) (s : String) : List Char :=
  if styleOf s = .literal ∧ s.toList.getLast?.any isBreak then textOf indent s
  else textOf indent s ++ ['\n']

/-- Longer keys, and keys of several lines, stand behind a question mark. -/
def maxKeyLength : Nat := 128

def isSimpleKey (key : String) : Bool :=
  !isMultiline key.toList && key.utf8ByteSize ≤ maxKeyLength

def numberText : Number → List Char
  | .int z => Text.decimalInt z
  | .float x =>
    if x.isFinite then Decimal.render .yaml x
    else if x.isNaN then ['.', 'n', 'a', 'n']
    else (if x.sign then ['-'] else []) ++ ['.', 'i', 'n', 'f']

/-- The key of an entry, up to the colon; its first line has been indented. -/
def keyText (indent : Nat) (key : String) : List Char :=
  if isSimpleKey key then textOf (indent + 2) key ++ [':']
  else '?' :: ' ' :: textLine (indent + 2) key ++ spaces indent ++ [':']

mutual

/-- A value at the end of a line that has been started; what it puts on lines below is indented
deeper than `indent`. -/
def inline (indent : Nat) : Json → List Char
  | .null => ['n', 'u', 'l', 'l', '\n']
  | .bool b => Json.boolText b ++ ['\n']
  | .num n => numberText n ++ ['\n']
  | .str s => textLine (indent + 2) s
  | .arr [] => ['[', ']', '\n']
  | .arr (v :: vs) => '-' :: ' ' :: inline (indent + 2) v ++ items (indent + 2) vs
  | .obj [] => ['\x7b', '\x7d', '\n']
  | .obj ((k, v) :: ms) =>
    keyText (indent + 2) k ++
      (if isSimpleKey k then value (indent + 2) v else ' ' :: inline (indent + 2) v) ++
      entries (indent + 2) ms

def items (indent : Nat) : List Json → List Char
  | [] => []
  | v :: vs => spaces indent ++ '-' :: ' ' :: inline indent v ++ items indent vs

def entries (indent : Nat) : List (String × Json) → List Char
  | [] => []
  | (k, v) :: ms =>
    spaces indent ++ keyText indent k ++
      (if isSimpleKey k then value indent v else ' ' :: inline indent v) ++ entries indent ms

/-- A value behind the colon of a simple key. The hyphens of a list stand below the key. -/
def value (indent : Nat) : Json → List Char
  | .null => [' ', 'n', 'u', 'l', 'l', '\n']
  | .bool b => ' ' :: Json.boolText b ++ ['\n']
  | .num n => ' ' :: numberText n ++ ['\n']
  | .str s => ' ' :: textLine (indent + 2) s
  | .arr [] => [' ', '[', ']', '\n']
  | .arr (v :: vs) => '\n' :: spaces indent ++ '-' :: ' ' :: inline indent v ++ items indent vs
  | .obj [] => [' ', '\x7b', '\x7d', '\n']
  | .obj ((k, v) :: ms) =>
    '\n' :: spaces (indent + 2) ++ keyText (indent + 2) k ++
      (if isSimpleKey k then value (indent + 2) v else ' ' :: inline (indent + 2) v) ++
      entries (indent + 2) ms

end

/-- The document of a tree. -/
def document : Json → List Char
  | .arr (v :: vs) => items 0 (v :: vs)
  | .obj (m :: ms) => entries 0 (m :: ms)
  | v => inline 0 v

end Writer

def render (v : Json) : String := .ofList (Writer.document v)

end DeliveryCharts.Yaml
