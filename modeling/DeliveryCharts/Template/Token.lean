import DeliveryCharts.Decimal.Binary64
import DeliveryCharts.Template.Fault
import DeliveryCharts.Text.Blank
import DeliveryCharts.Text.Lines
import DeliveryCharts.Text.Numeral

/-!
The tokens of a template: text between the blocks, and what stands inside of them. Each token knows
the line on which it starts.
-/

namespace DeliveryCharts

open Decimal (Binary64)

namespace Template

inductive Token where
  | data (cs : List Char)
  | variableStart
  | variableEnd
  | blockStart
  | blockEnd
  | name (s : String)
  | text (s : String)
  | int (n : Nat)
  | float (x : Binary64)
  | symbol (s : String)
  deriving DecidableEq, Repr

/-- A token and the line on which it starts. -/
abbrev Located := Token × Nat

/-- All tokens, up to a fault if there is one. -/
structure Tokens where
  list : List Located
  fault : Option Fault := none

namespace Tokens

def push (t : Token) (line : Nat) (ts : Tokens) : Tokens := { ts with list := (t, line) :: ts.list }

def none : Tokens := ⟨[], .none⟩

def broken (f : Fault) : Tokens := ⟨[], some f⟩

end Tokens

namespace Scan

def feeds (cs : List Char) : Nat := cs.countP (· == '\n')

/-- How blanks next to a block are treated: those between the text and `-` are dropped. -/
inductive Margin where
  | plain
  | keep
  | drop
  deriving DecidableEq, Repr

def margin : List Char → Margin × List Char
  | '-' :: cs => (.drop, cs)
  | '+' :: cs => (.keep, cs)
  | cs => (.plain, cs)

inductive Opening where
  | variable
  | block
  | comment
  deriving DecidableEq, Repr

/-- The text in front of the first opening, the opening, and what follows it. -/
def findOpening : List Char → List Char × Option Opening × List Char
  | [] => ([], .none, [])
  | '{' :: '{' :: cs => ([], some .variable, cs)
  | '{' :: '%' :: cs => ([], some .block, cs)
  | '{' :: '#' :: cs => ([], some .comment, cs)
  | c :: cs =>
    let (before, opening, rest) := findOpening cs
    (c :: before, opening, rest)

def isAsciiBlank (c : Char) : Bool :=
  c == ' ' || c == '\t' || c == '\n' || c == '\r' || c == '\x0c'

/-- A block that holds nothing but the word, from behind its opening to behind its end. -/
def bareBlock? (word : String) (cs : List Char) : Option (Margin × List Char) :=
  (Text.dropWord? word.toList (cs.dropWhile isAsciiBlank)).bind fun rest ↦
    let (m, rest) := margin (rest.dropWhile isAsciiBlank)
    (Text.dropWord? ['%', '}'] rest).map fun rest ↦ (m, rest)

/-- The end of a raw block. -/
structure RawEnd where
  content : List Char
  before : Margin
  after : Margin
  rest : List Char

/-- Looks for `endraw`; what stands before it is the content. -/
def findRawEnd : List Char → Option RawEnd
  | [] => .none
  | '{' :: '%' :: cs =>
    let (m, inside) := margin cs
    match bareBlock? "endraw" inside with
    | some (after, rest) => some ⟨[], m, after, rest⟩
    | .none => (findRawEnd cs).map fun e ↦ { e with content := '{' :: '%' :: e.content }
  | c :: cs => (findRawEnd cs).map fun e ↦ { e with content := c :: e.content }

/-- The characters of a comment before its end, and what follows it. -/
def findCommentEnd (cs : List Char) : Option (List Char × List Char) :=
  Text.splitOnce? ['#', '}'] cs

/-- A text in quotes: the characters as they are written, and what follows the quote. -/
def quoted (quote : Char) : List Char → Option (List Char × List Char)
  | [] => .none
  | ['\\'] => .none
  | '\\' :: c :: cs => (quoted quote cs).map fun p ↦ ('\\' :: c :: p.1, p.2)
  | c :: cs =>
    if c = quote then some ([], cs) else (quoted quote cs).map fun p ↦ (c :: p.1, p.2)

def isHighSurrogate (n : Nat) : Bool := 0xD800 ≤ n && n < 0xDC00

def isLowSurrogate (n : Nat) : Bool := 0xDC00 ≤ n && n < 0xE000

/-- Up to two further octal digits. -/
def octal (n : Nat) : Nat → List Char → Nat × List Char
  | 0, cs => (n, cs)
  | _, [] => (n, [])
  | k + 1, c :: cs =>
    match Text.digit? 8 c with
    | some d => octal (n * 8 + d) k cs
    | .none => (n, c :: cs)

/-- Reads escapes; `high` is the first half of a pair of surrogates, which the second half has to
follow. Nothing if there is an escape that is none. -/
def unescape (fuel : Nat) (high : Option Nat) (cs : List Char) : Option (List Char) :=
  match fuel, cs with
  | _, [] => if high.isNone then some [] else .none
  | 0, _ => .none
  | fuel + 1, '\\' :: e :: cs =>
    let put := fun (c : Char) (rest : List Char) ↦
      if high.isNone then (unescape fuel .none rest).map (c :: ·) else .none
    match e with
    | 'n' => put '\n' cs
    | 't' => put '\t' cs
    | 'r' => put '\r' cs
    | 'b' => put '\x08' cs
    | 'f' => put '\x0c' cs
    | 'u' =>
      match Text.readNat? 16 (cs.take 4) with
      | .none => .none
      | some n =>
        if cs.length < 4 then .none
        else
          match high with
          | .none =>
            if isHighSurrogate n || isLowSurrogate n then unescape fuel (some n) (cs.drop 4)
            else put (.ofNat n) (cs.drop 4)
          | some h =>
            if isHighSurrogate h && isLowSurrogate n then
              (unescape fuel .none (cs.drop 4)).map
                (.ofNat (0x10000 + (h - 0xD800) * 0x400 + (n - 0xDC00)) :: ·)
            else .none
    | 'x' =>
      match Text.readNat? 16 (cs.take 2) with
      | some n => if cs.length < 2 then .none else put (.ofNat n) (cs.drop 2)
      | .none => .none
    | e =>
      if e = '"' ∨ e = '\\' ∨ e = '/' ∨ e = '\'' then put e cs
      else
        match Text.digit? 8 e with
        | .none => .none
        | some d =>
          let (n, rest) := octal d 2 cs
          if n < 256 then put (.ofNat n) rest else .none
  | fuel + 1, c :: cs => if high.isNone then (unescape fuel .none cs).map (c :: ·) else .none

/-- Where the reading of a number stands. -/
inductive NumberPart where
  | whole
  | fraction
  | exponent
  | afterSign
  deriving DecidableEq, Repr

/-- The characters that belong to a decimal number, and whether it is a float. -/
def decimalRun : NumberPart → List Char → List Char × NumberPart × List Char
  | part, [] => ([], part, [])
  | part, c :: cs =>
    let next? : Option NumberPart :=
      if c = '.' ∧ part = .whole then some .fraction
      else if (c = 'e' ∨ c = 'E') ∧ (part = .whole ∨ part = .fraction) then some .exponent
      else if (c = '+' ∨ c = '-') ∧ part = .exponent then some .afterSign
      else if Text.isDigit c then some (if part = .exponent then .afterSign else part)
      else if c = '_' then some part
      else .none
    match next? with
    | .none => ([], part, c :: cs)
    | some next =>
      let (run, last, rest) := decimalRun next cs
      (c :: run, last, rest)

def withoutUnderscores (cs : List Char) : List Char := cs.filter (· != '_')

/-- Integers have at most 128 bits. -/
def integer? (radix : Nat) (cs : List Char) : Option Token :=
  ((Text.readUnsigned? radix cs).filter (· < twoPow 128)).map .int

def radixOf : List Char → Option (Nat × List Char)
  | '0' :: c :: cs =>
    if c = 'x' ∨ c = 'X' then some (16, cs)
    else if c = 'o' ∨ c = 'O' then some (8, cs)
    else if c = 'b' ∨ c = 'B' then some (2, cs)
    else .none
  | _ => .none

/-- A number at the head of the text. -/
def number? (cs : List Char) : Option (Token × List Char) :=
  let trailing := fun run : List Char ↦ run.getLast? = some '_'
  match radixOf cs with
  | some (radix, cs) =>
    let belongs := fun c ↦
      Text.isDigit c || c == '_' || (radix == 16 && Text.isHexDigit c)
    let run := cs.takeWhile belongs
    if trailing run then .none
    else (integer? radix (withoutUnderscores run)).map fun t ↦ (t, cs.dropWhile belongs)
  | .none =>
    let (run, part, rest) := decimalRun .whole cs
    if trailing run then .none
    else
      let digits := withoutUnderscores run
      let token? :=
        if part = .whole then integer? 10 digits else (Decimal.readDecimal? digits).map Token.float
      token?.map fun t ↦ (t, rest)

def isNameStart (c : Char) : Bool :=
  c == '_' || ('a' ≤ c && c ≤ 'z') || ('A' ≤ c && c ≤ 'Z')

def isNameChar (c : Char) : Bool := isNameStart c || Text.isDigit c

def symbols : List String :=
  ["//", "**", "==", "!=", ">=", "<=", "+", "-", "*", "/", "%", ".", ",", ":", "~", "|", "=", ">",
    "<", "(", ")", "[", "]", "\x7b", "\x7d"]

/-- The longest symbol at the head of the text. -/
def symbol? (cs : List Char) : Option (String × List Char) :=
  symbols.findSome? fun s ↦ (Text.dropWord? s.toList cs).map fun rest ↦ (s, rest)

/-- A token inside of a block, with what follows it. -/
def inside (line : Nat) (cs : List Char) : Except Fault (Token × List Char) :=
  match cs with
  | [] => .error (.malformed (some line))
  | c :: rest =>
    if c = '"' ∨ c = '\'' then
      match quoted c rest with
      | .none => .error (.malformed (some line))
      | some (written, rest) =>
        if !written.contains '\\' then .ok (.text (.ofList written), rest)
        else
          match unescape written.length .none written with
          | some cs => .ok (.text (.ofList cs), rest)
          | .none => .error ⟨.badEscape, .none, .none⟩
    else if Text.isDigit c then
      match number? cs with
      | some t => .ok t
      | .none => .error (.malformed (some line))
    else
      match symbol? cs with
      | some (s, rest) => .ok (.symbol s, rest)
      | .none =>
        if isNameStart c then
          .ok (.name (.ofList (cs.takeWhile isNameChar)), cs.dropWhile isNameChar)
        else .error (.malformed (some line))

/-- Where the scan stands: in the text, perhaps behind a block that drops the blanks after it, or
inside of a block, below so many open braces. -/
inductive Place where
  | text (trim : Bool)
  | block
  | variable (braces : Nat)

def afterMargin (m : Margin) : Place := .text (m == .drop)

/-- The end of the block at the head of the text. A brace that is open is closed first. -/
def closing? (place : Place) (cs : List Char) : Option (Token × Margin × List Char) :=
  let (m, rest) := margin cs
  match place with
  | .text _ => .none
  | .block => (Text.dropWord? ['%', '}'] rest).map fun rest ↦ (.blockEnd, m, rest)
  | .variable 0 => (Text.dropWord? ['}', '}'] rest).map fun rest ↦ (.variableEnd, m, rest)
  | .variable _ => .none

def track (t : Token) : Place → Place
  | .variable n =>
    if t = .symbol "\x7b" then .variable (n + 1)
    else if t = .symbol "\x7d" then .variable (n - 1)
    else .variable n
  | place => place

/-- Pushes text that is not empty. -/
def pushData (cs : List Char) (line : Nat) (ts : Tokens) : Tokens :=
  if cs.isEmpty then ts else ts.push (.data cs) line

def scan : Nat → Place → Nat → List Char → Tokens
  | 0, _, _, _ => .none
  | _, _, _, [] => .none
  | fuel + 1, .text trim, line, cs =>
    let blanks := if trim then cs.takeWhile Text.isBlank else []
    let cs := if trim then cs.dropWhile Text.isBlank else cs
    let line := line + feeds blanks
    let (before, opening?, rest) := findOpening cs
    let there := line + feeds before
    match opening? with
    | .none => pushData before line .none
    | some opening =>
      let (m, inner) := margin rest
      let before := if m = .drop then Text.trimEndChars before else before
      pushData before line <|
        match opening with
        | .variable => (scan fuel (.variable 0) there inner).push .variableStart there
        | .block =>
          match bareBlock? "raw" inner with
          | .none => (scan fuel .block there inner).push .blockStart there
          | some (start, content) =>
            let there := there + feeds (inner.take (inner.length - content.length))
            match findRawEnd content with
            | .none => .broken (.malformed (some there))
            | some e =>
              let shown := if start = .drop then Text.trimStartChars e.content else e.content
              let shown := if e.before = .drop then Text.trimEndChars shown else shown
              let next := there + feeds (content.take (content.length - e.rest.length))
              (scan fuel (afterMargin e.after) next e.rest).push (.data shown) there
        | .comment =>
          match findCommentEnd inner with
          | .none => .broken (.malformed (some there))
          | some (comment, rest) =>
            let after := if comment.getLast? = some '-' then Margin.drop else .plain
            scan fuel (afterMargin after) (there + feeds comment) rest
  | fuel + 1, place, line, c :: cs =>
    if isAsciiBlank c then scan fuel place (if c = '\n' then line + 1 else line) cs
    else
      match closing? place (c :: cs) with
      | some (t, m, rest) => (scan fuel (afterMargin m) line rest).push t line
      | .none =>
        match inside line (c :: cs) with
        | .error f => .broken f
        | .ok (t, rest) =>
          let passed := (c :: cs).take (cs.length + 1 - rest.length)
          (scan fuel (track t place) (line + feeds passed) rest).push t line

end Scan

def Tokens.ofSource (source : String) : Tokens :=
  Scan.scan (source.length + 1) (.text false) 1 source.toList

end Template

end DeliveryCharts
