import DeliveryCharts.Text.Numeral
import DeliveryCharts.Yaml.Cursor

/-!
The scalars of a YAML text: plain, in quotes, and as blocks.
-/

namespace DeliveryCharts.Yaml

abbrev Scanned := Except Fault (List Char × Cursor)

/-- Between two words of a scalar: one line break is a space, of more the first is dropped. -/
def fold (leading trailing : List Char) : List Char :=
  if leading = ['\n'] then if trailing.isEmpty then [' '] else trailing
  else leading ++ trailing

/-- Blanks and breaks inside a scalar. Blanks count before the first break only. -/
structure Gap where
  blanks : List Char
  leading : Option (List Char)
  trailing : List Char
  cursor : Cursor

def Gap.text (g : Gap) : List Char :=
  match g.leading with
  | none => g.blanks
  | some l => fold l g.trailing

/-- Past a gap; behind a break no tab may stand left of the column `indent`. A break that has been
seen already is `leading`. -/
def gap (indent : Nat) (leading : Option (List Char)) (c : Cursor) : Except Fault Gap :=
  go c.rest.length ⟨[], leading, [], c⟩
where
  go : Nat → Gap → Except Fault Gap
    | 0, g => .ok g
    | fuel + 1, g =>
      match g.cursor.rest with
      | [] => .ok g
      | ch :: _ =>
        if isSpaceOrTab ch then
          match g.leading with
          | none => go fuel { g with blanks := g.blanks ++ [ch], cursor := g.cursor.advance 1 }
          | some _ =>
            if ch == '\t' && g.cursor.col < indent then .error .malformed
            else go fuel { g with cursor := g.cursor.advance 1 }
        else if isBreak ch then
          let text := g.cursor.breakText
          let next := g.cursor.newline
          match g.leading with
          | none => go fuel ⟨[], some text, [], next⟩
          | some l => go fuel ⟨g.blanks, some l, g.trailing ++ text, next⟩
        else .ok g

def isFlowIndicator (c : Char) : Bool :=
  c == ',' || c == '[' || c == ']' || c == '\x7b' || c == '\x7d'

/-- The characters of a word of a plain scalar. In brackets a colon in front of an indicator is a
fault. -/
def plainWord (inFlow : Bool) : List Char → Except Fault (List Char)
  | [] => .ok []
  | c :: r =>
    if isGap c then .ok []
    else if c == ':' && inFlow && (r.head?.any fun d ↦ isFlowIndicator d || d == '?') then
      .error .malformed
    else if c == ':' && endsWord r then .ok []
    else if inFlow && isFlowIndicator c then .ok []
    else (plainWord inFlow r).map (c :: ·)

/-- The words of a plain scalar and the gaps between them. Outside brackets every line is indented
by at least `indent`. -/
def plain (inFlow : Bool) (indent : Nat) (c : Cursor) : Scanned :=
  go (c.rest.length + 1) [] [] c.unfresh
where
  go : Nat → List Char → List Char → Cursor → Scanned
    | 0, text, _, c => .ok (text, c)
    | fuel + 1, text, between, c =>
      if c.atMarker || c.rest.head? == some '#' then .ok (text, c)
      else do
        let word ← plainWord inFlow c.rest
        if word.isEmpty then return (text, c)
        let text := text ++ between ++ word
        let c := { c.advance word.length with fresh := false }
        if !endsWord c.rest || c.rest.isEmpty then return (text, c)
        let g ← gap indent none c
        let c := { g.cursor with fresh := g.leading.isSome }
        if !inFlow && c.col < indent then return (text, c)
        go fuel text g.text c

def escape? (c : Char) : Option Char :=
  match c with
  | '0' => some '\x00'
  | 'a' => some '\x07'
  | 'b' => some '\x08'
  | 't' => some '\t'
  | '\t' => some '\t'
  | 'n' => some '\n'
  | 'v' => some '\x0b'
  | 'f' => some '\x0c'
  | 'r' => some '\r'
  | 'e' => some '\x1b'
  | ' ' => some ' '
  | '"' => some '"'
  | '/' => some '/'
  | '\\' => some '\\'
  | 'N' => some '\u0085'
  | '_' => some '\u00A0'
  | 'L' => some '\u2028'
  | 'P' => some '\u2029'
  | _ => none

/-- The number of hexadecimal digits of an escape. -/
def escapeDigits? (c : Char) : Option Nat :=
  match c with
  | 'x' => some 2
  | 'u' => some 4
  | 'U' => some 8
  | _ => none

def scalarValue? (n : Nat) : Option Char :=
  if n < 0xD800 ∨ (0xDFFF < n ∧ n ≤ 0x10FFFF) then some (Char.ofNat n) else none

/-- What a run of characters in quotes comes to an end with. -/
inductive RunEnd where
  | quote
  | gap
  | escapedBreak

/-- Characters in quotes up to the closing quote or a gap, and the number of characters read. -/
def quotedRun (double : Bool) : Nat → List Char → Except Fault (List Char × RunEnd × Nat)
  | 0, _ => .error .malformed
  | _, [] => .ok ([], .gap, 0)
  | fuel + 1, c :: r =>
    if isGap c then .ok ([], .gap, 0)
    else if !double && c == '\'' then
      match r with
      | '\'' :: r => (quotedRun double fuel r).map fun p ↦ ('\'' :: p.1, p.2.1, p.2.2 + 2)
      | _ => .ok ([], .quote, 0)
    else if double && c == '"' then .ok ([], .quote, 0)
    else if double && c == '\\' then
      match r with
      | [] => .error .malformed
      | d :: r =>
        if isBreak d then .ok ([], .escapedBreak, 1)
        else
          match escape? d, escapeDigits? d with
          | some e, _ => (quotedRun double fuel r).map fun p ↦ (e :: p.1, p.2.1, p.2.2 + 2)
          | none, some n =>
            if r.length < n then .error .malformed
            else
              match (Text.readUnsigned? 16 (r.take n)).bind scalarValue? with
              | some e =>
                (quotedRun double fuel (r.drop n)).map fun p ↦ (e :: p.1, p.2.1, p.2.2 + 2 + n)
              | none => .error .malformed
          | none, none => .error .malformed
    else (quotedRun double fuel r).map fun p ↦ (c :: p.1, p.2.1, p.2.2 + 1)

/-- A scalar in quotes, behind its opening quote. -/
def quoted (double : Bool) (c : Cursor) : Scanned :=
  go (c.rest.length + 1) c.unfresh
where
  go : Nat → Cursor → Scanned
    | 0, _ => .error .malformed
    | fuel + 1, c =>
      if c.atEnd then .error .malformed
      else do
        let (text, ending, n) ← quotedRun double (c.rest.length + 1) c.rest
        let c := c.advance n
        match ending with
        | .quote => return (text, c.advance 1)
        | .gap => do
          if c.rest.isEmpty then throw .malformed
          let g ← gap 0 none c
          let (more, c) ← go fuel g.cursor
          return (text ++ g.text ++ more, c)
        | .escapedBreak => do
          let g ← gap 0 (some []) c.newline
          let (more, c) ← go fuel g.cursor
          return (text ++ g.text ++ more, c)

inductive Chomp where
  | strip
  | clip
  | keep
  deriving DecidableEq

/-- The indicators behind `|` or `>`: what becomes of the final breaks, and the indentation if it is
given; each at most once, in either order. -/
def blockHeader (cs : List Char) : Except Fault (Chomp × Option Nat × Nat) :=
  let chomp? := fun c : Char ↦
    if c == '+' then some Chomp.keep else if c == '-' then some Chomp.strip else none
  let digit? := fun c : Char ↦ if Text.isDigit c then some (c.toNat - 48) else none
  let valid := fun (r : Chomp × Option Nat × Nat) ↦
    if r.2.1 = some 0 then Except.error Fault.malformed else .ok r
  match cs with
  | [] => .ok (.clip, none, 0)
  | c :: r =>
    match chomp? c, digit? c with
    | some k, _ =>
      match r.head?.bind digit? with
      | some d => valid (k, some d, 2)
      | none => .ok (k, none, 1)
    | none, some d =>
      match r.head?.bind chomp? with
      | some k => valid (k, some d, 2)
      | none => valid (.clip, some d, 1)
    | none, none => .ok (.clip, none, 0)

/-- The breaks in front of a line of a block, and the block's indentation, which is that of the
deepest of these lines when it is not known (0) yet, and at least `least`. -/
def blockBreaks (least indent : Nat) (c : Cursor) : Except Fault (Nat × List Char × Cursor) :=
  go c.rest.length 0 [] c
where
  go : Nat → Nat → List Char → Cursor → Except Fault (Nat × List Char × Cursor)
    | fuel, deepest, breaks, c =>
      let n := (c.rest.takeWhile (· == ' ')).length
      let c := c.advance (if indent = 0 then n else min n (indent - c.col))
      let deepest := max deepest c.col
      if (indent = 0 ∨ c.col < indent) ∧ c.rest.head? = some '\t' then .error .malformed
      else
        match fuel, startsBreak c.rest with
        | fuel + 1, true => go fuel deepest (breaks ++ c.breakText) c.newline
        | _, _ => .ok (if indent = 0 then max (max deepest least) 1 else indent, breaks, c)

structure BlockState where
  text : List Char := []
  /-- The break behind the last line. -/
  leading : List Char := []
  /-- The breaks of the blank lines behind it. -/
  trailing : List Char
  /-- The last line starts with a blank. -/
  leadingBlank : Bool := false
  cursor : Cursor

/-- The lines of a block that is indented by `indent`. -/
def blockLines (literal : Bool) (indent : Nat) : Nat → BlockState → Except Fault BlockState
  | 0, s => .ok s
  | fuel + 1, s =>
    if s.cursor.col ≠ indent || s.cursor.rest.isEmpty then .ok s
    else do
      let blank := s.cursor.rest.head?.any isSpaceOrTab
      let between :=
        if !literal && s.leading == ['\n'] && !s.leadingBlank && !blank then
          if s.trailing.isEmpty then [' '] else s.trailing
        else s.leading ++ s.trailing
      let line := s.cursor.rest.takeWhile fun c ↦ !isBreak c
      let c := s.cursor.advance line.length
      let leading := c.breakText
      let c := if c.rest.isEmpty then c else c.newline
      let (_, trailing, c) ← blockBreaks indent indent c
      blockLines literal indent fuel ⟨s.text ++ between ++ line, leading, trailing, blank, c⟩

/-- A block behind `|` or `>`, inside a collection that is indented by `parent - 1`. -/
def block (literal : Bool) (parent : Nat) (c : Cursor) : Scanned := do
  let (chomp, given, n) ← blockHeader c.rest
  let c := (c.advance n).spaces isSpaceOrTab
  let c := c.dropComment
  if !c.rest.isEmpty && !startsBreak c.rest then throw .malformed
  let c := if c.rest.isEmpty then c else c.newline
  let indent := match given with
    | some d => if parent = 0 then d else parent - 1 + d
    | none => 0
  let (indent, trailing, c) ← blockBreaks parent indent c
  let s ← blockLines literal indent (c.rest.length + 1) { trailing, cursor := c }
  let tail := match chomp with
    | .strip => []
    | .clip => s.leading
    | .keep => s.leading ++ s.trailing
  return (s.text ++ tail, { s.cursor with fresh := true })

end DeliveryCharts.Yaml
