import DeliveryCharts.Json.Fault
import DeliveryCharts.Text.Utf8

/-!
Reading JSON texts. `parse` builds the tree of a text; `skipValue` passes over a value whose content
does not matter and asks less of it: numbers may be out of range, strings may be damaged, and there
is no limit on its depth.
-/

namespace DeliveryCharts.Json.Reader

open Decimal (Binary64)
open Text (Received)

abbrev Step (α : Type) := Except TextFault (α × Received)

def isSpace : Option Char → Bool
  | some c => c == ' ' || c == '\n' || c == '\t' || c == '\r'
  | none => false

def skipSpace (s : Received) : Received := s.dropWhile isSpace

/-- The rest of a word whose first letter has been read. -/
def word : List Char → Received → Except TextFault Received
  | [], s => .ok s
  | _ :: _, [] => .error .eofInValue
  | c :: w, u :: s => if u = some c then word w s else .error .expectedWord

def digitValue (c : Char) : Nat := c.toNat - 48

/-- The digits at the head of the text, and what follows them. -/
def digits : Received → List Char × Received
  | some c :: s => if Text.isDigit c then ((digits s).map (c :: ·) id) else ([], some c :: s)
  | s => ([], s)

def hexValue : Option Char → Option Nat
  | some c => Text.digit? 16 c
  | none => none

def hex4 (a b c d : Option Char) : Option Nat := do
  let a ← hexValue a
  let b ← hexValue b
  let c ← hexValue c
  let d ← hexValue d
  return ((a * 16 + b) * 16 + c) * 16 + d

/-- Four bytes are looked at, whether they are digits or not. -/
def hexFault (s : Received) : TextFault :=
  if s.foldl (fun n c ↦ n + c.elim 1 Char.utf8Size) 0 < 4 then .eofInString else .invalidEscape

def isHighSurrogate (n : Nat) : Bool := 0xD800 ≤ n && n ≤ 0xDBFF

def isLowSurrogate (n : Nat) : Bool := 0xDC00 ≤ n && n ≤ 0xDFFF

def escaped? (c : Char) : Option Char :=
  match c with
  | '"' => some '"'
  | '\\' => some '\\'
  | '/' => some '/'
  | 'b' => some '\x08'
  | 'f' => some '\x0c'
  | 'n' => some '\n'
  | 'r' => some '\r'
  | 't' => some '\t'
  | _ => none

/-- The characters of a string behind its opening quote. A damaged byte is noticed at the end. -/
def stringBody (damaged : Bool) : Received → Step (List Char)
  | [] => .error .eofInString
  | none :: s => stringBody true s
  | some '\\' :: s =>
    match s with
    | [] => .error .eofInString
    | some 'u' :: a :: b :: c :: d :: s =>
      match hex4 a b c d with
      | none => .error .invalidEscape
      | some n =>
        if isLowSurrogate n then .error .loneSurrogate
        else if !isHighSurrogate n then
          (stringBody damaged s).map fun r ↦ (Char.ofNat n :: r.1, r.2)
        else
          match s with
          | [] => .error .eofInString
          | some '\\' :: [] => .error .eofInString
          | some '\\' :: some 'u' :: a :: b :: c :: d :: s =>
            match hex4 a b c d with
            | none => .error .invalidEscape
            | some m =>
              if !isLowSurrogate m then .error .loneSurrogate
              else
                let code := 0x10000 + (n - 0xD800) * 0x400 + (m - 0xDC00)
                (stringBody damaged s).map fun r ↦ (Char.ofNat code :: r.1, r.2)
          | some '\\' :: some 'u' :: s => .error (hexFault s)
          | _ => .error .endOfHexEscape
    | some 'u' :: s => .error (hexFault s)
    | some c :: s =>
      match escaped? c with
      | some e => (stringBody damaged s).map fun r ↦ (e :: r.1, r.2)
      | none => .error .invalidEscape
    | none :: _ => .error .invalidEscape
  | some c :: s =>
    if c = '"' then if damaged then .error .invalidCodePoint else .ok ([], s)
    else if c.toNat < 32 then .error .controlCharacter
    else (stringBody damaged s).map fun r ↦ (c :: r.1, r.2)

def string (s : Received) : Step String :=
  (stringBody false s).map fun r ↦ (.ofList r.1, r.2)

/-- Passes over the characters of a string behind its opening quote. -/
def skipString : Received → Except TextFault Received
  | [] => .error .eofInString
  | none :: s => skipString s
  | some '\\' :: s =>
    match s with
    | [] => .error .eofInString
    | some 'u' :: a :: b :: c :: d :: s =>
      if (hex4 a b c d).isNone then .error .invalidEscape else skipString s
    | some 'u' :: s => .error (hexFault s)
    | some c :: s => if (escaped? c).isNone then .error .invalidEscape else skipString s
    | none :: _ => .error .invalidEscape
  | some c :: s =>
    if c = '"' then .ok s
    else if c.toNat < 32 then .error .controlCharacter
    else skipString s

/-! Numbers that are no integers of 64 bits are computed from as many digits as 64 bits hold and a
power of ten, by floating point multiplication and division. -/

/-- Takes digits while the value fits 64 bits; the digits left over are counted. -/
def takeSignificant : Nat → List Char → Nat × Nat
  | n, [] => (n, 0)
  | n, c :: cs =>
    let m := n * 10 + digitValue c
    if m < twoPow 64 then takeSignificant m cs else (n, cs.length + 1)

def scaled (negative : Bool) (significand : Nat) (exponent : Int) : Except TextFault Number :=
  (go 8 (Binary64.ofInt significand) exponent).map fun x ↦ .float (if negative then x.neg else x)
where
  go : Nat → Binary64 → Int → Except TextFault Binary64
    | 0, x, _ => .ok x
    | fuel + 1, x, e =>
      if e.natAbs ≤ 308 then
        let power := Binary64.ofDecimal false 1 e.natAbs
        if e ≥ 0 then
          let y := x.nearestProduct power
          if y.isFinite then .ok y else .error .numberOutOfRange
        else .ok (x.nearestQuotient power)
      else if x.isZero then .ok x
      else if e ≥ 0 then .error .numberOutOfRange
      else go fuel (x.nearestQuotient (Binary64.ofDecimal false 1 308)) (e + 308)

/-- The exponent behind its letter, and the number that it completes. -/
def exponentPart (negative : Bool) (significand : Nat) (start : Int) (s : Received) :
    Step Number :=
  let (negativeExp, s) : Bool × Received :=
    match s with
    | some '+' :: s => (false, s)
    | some '-' :: s => (true, s)
    | s => (false, s)
  match s with
  | [] => .error .eofInValue
  | s =>
    let (ds, s) := digits s
    if ds.isEmpty then .error .invalidNumber
    else
      let e := ds.foldl (fun n c ↦ n * 10 + digitValue c) 0
      if e ≥ twoPow 31 then
        if significand ≠ 0 ∧ !negativeExp then .error .numberOutOfRange
        else .ok (.float (Binary64.withSign negative 0), s)
      else
        (scaled negative significand (if negativeExp then start - e else start + e)).map (·, s)

/-- What follows the digits of the fraction. -/
def exponentOrEnd (negative : Bool) (significand : Nat) (start : Int) (s : Received) :
    Step Number :=
  match s with
  | some 'e' :: s => exponentPart negative significand start s
  | some 'E' :: s => exponentPart negative significand start s
  | s => (scaled negative significand start).map (·, s)

/-- The fraction behind the point. -/
def fractionPart (negative : Bool) (significand before : Nat) (s : Received) : Step Number :=
  let (ds, r) := digits s
  if ds.isEmpty then .error (if r.isEmpty then .eofInValue else .invalidNumber)
  else
    let (m, left) := takeSignificant significand ds
    exponentOrEnd negative m ((before : Int) - (ds.length - left : Nat)) r

/-- A number behind its sign. Minus zero and integers beyond 64 bits are floating point numbers. -/
def number (negative : Bool) (s : Received) : Step Number :=
  match s with
  | [] => .error .eofInValue
  | s =>
    let (ds, r) := digits s
    match ds with
    | [] => .error .invalidNumber
    | '0' :: _ :: _ => .error .invalidNumber
    | ds =>
      let (n, left) := takeSignificant 0 ds
      match r with
      | some '.' :: r => fractionPart negative n left r
      | some 'e' :: r => exponentPart negative n left r
      | some 'E' :: r => exponentPart negative n left r
      | r =>
        if left ≠ 0 then (scaled negative n left).map (·, r)
        else if !negative then .ok (.int n, r)
        else if n ≠ 0 ∧ n ≤ twoPow 63 then .ok (.int (-n), r)
        else .ok (.float (Binary64.ofInt n).neg, r)

/-- Passes over a number behind its sign. -/
def skipNumber (s : Received) : Except TextFault Received :=
  let exponent := fun s : Received ↦
    let s := match s with
      | some '+' :: s => s
      | some '-' :: s => s
      | s => s
    match digits s with
    | ([], _) => .error .invalidNumber
    | (_, s) => .ok s
  match digits s with
  | ([], _) => .error .invalidNumber
  | ('0' :: _ :: _, _) => .error .invalidNumber
  | (_, s) =>
    match s with
    | some '.' :: s =>
      match digits s with
      | ([], _) => .error .invalidNumber
      | (_, some 'e' :: s) => exponent s
      | (_, some 'E' :: s) => exponent s
      | (_, s) => .ok s
    | some 'e' :: s => exponent s
    | some 'E' :: s => exponent s
    | s => .ok s

/-- The colon behind a key. -/
def colon (s : Received) : Except TextFault Received :=
  match skipSpace s with
  | [] => .error .eofInObject
  | some ':' :: s => .ok s
  | _ => .error .expectedColon

/-- What stands before the next item of a list: the end, or the item itself. -/
def nextItem (first : Bool) (s : Received) : Except TextFault (Bool × Received) :=
  match skipSpace s with
  | [] => .error .eofInList
  | some ']' :: s => .ok (false, s)
  | some ',' :: s =>
    if first then .ok (true, some ',' :: s)
    else
      match skipSpace s with
      | [] => .error .eofInValue
      | some ']' :: _ => .error .trailingComma
      | s => .ok (true, s)
  | s => if first then .ok (true, s) else .error .expectedListCommaOrEnd

/-- What stands before the next member of an object: the end, or the member's key, whose opening
quote is passed over. -/
def nextKey (first : Bool) (s : Received) : Except TextFault (Bool × Received) :=
  match skipSpace s with
  | [] => .error .eofInObject
  | some '\x7d' :: s => .ok (false, s)
  | some ',' :: s =>
    if first then .error .keyNotString
    else
      match skipSpace s with
      | [] => .error .eofInValue
      | some '"' :: s => .ok (true, s)
      | some '\x7d' :: _ => .error .trailingComma
      | _ => .error .keyNotString
  | some '"' :: s => if first then .ok (true, s) else .error .expectedObjectCommaOrEnd
  | _ => .error (if first then .keyNotString else .expectedObjectCommaOrEnd)

mutual

/-- A value with at most `depth` levels left. -/
def value : Nat → Nat → Received → Step Json
  | 0, _, _ => .error .eofInValue
  | fuel + 1, depth, s =>
    match skipSpace s with
    | [] => .error .eofInValue
    | some 'n' :: s => (word ['u', 'l', 'l'] s).map (.null, ·)
    | some 't' :: s => (word ['r', 'u', 'e'] s).map (.bool true, ·)
    | some 'f' :: s => (word ['a', 'l', 's', 'e'] s).map (.bool false, ·)
    | some '"' :: s => (string s).map fun r ↦ (.str r.1, r.2)
    | some '-' :: s => (number true s).map fun r ↦ (.num r.1, r.2)
    | some '[' :: s =>
      if depth ≤ 1 then .error .tooDeep
      else (items fuel (depth - 1) true s).map fun r ↦ (.arr r.1, r.2)
    | some '\x7b' :: s =>
      if depth ≤ 1 then .error .tooDeep
      else (members fuel (depth - 1) true [] s).map fun r ↦ (.obj r.1, r.2)
    | some c :: s =>
      if Text.isDigit c then (number false (some c :: s)).map fun r ↦ (.num r.1, r.2)
      else .error .expectedValue
    | none :: _ => .error .expectedValue

def items : Nat → Nat → Bool → Received → Except TextFault (List Json × Received)
  | 0, _, _, _ => .error .eofInList
  | fuel + 1, depth, first, s => do
    let (more, s) ← nextItem first s
    if !more then return ([], s)
    let (v, s) ← value fuel depth s
    let (vs, s) ← items fuel depth false s
    return (v :: vs, s)

/-- The members read so far are `ms`. -/
def members : Nat → Nat → Bool → Members → Received → Except TextFault (Members × Received)
  | 0, _, _, _, _ => .error .eofInObject
  | fuel + 1, depth, first, ms, s => do
    let (more, s) ← nextKey first s
    if !more then return (ms, s)
    let (key, s) ← string s
    let s ← colon s
    let (v, s) ← value fuel depth s
    members fuel depth false (ms.insert key v) s

end

mutual

def skipValue : Nat → Received → Except TextFault Received
  | 0, _ => .error .eofInValue
  | fuel + 1, s =>
    match skipSpace s with
    | [] => .error .eofInValue
    | some 'n' :: s => word ['u', 'l', 'l'] s
    | some 't' :: s => word ['r', 'u', 'e'] s
    | some 'f' :: s => word ['a', 'l', 's', 'e'] s
    | some '"' :: s => skipString s
    | some '-' :: s => skipNumber s
    | some '[' :: s =>
      match skipSpace s with
      | [] => .error .eofInList
      | some ']' :: s => .ok s
      | s => skipItems fuel s
    | some '\x7b' :: s =>
      match skipSpace s with
      | [] => .error .eofInObject
      | some '\x7d' :: s => .ok s
      | s => skipMembers fuel s
    | some c :: s => if Text.isDigit c then skipNumber (some c :: s) else .error .expectedValue
    | none :: _ => .error .expectedValue

def skipItems : Nat → Received → Except TextFault Received
  | 0, _ => .error .eofInList
  | fuel + 1, s => do
    let s ← skipValue fuel s
    match skipSpace s with
    | [] => .error .eofInList
    | some ',' :: s => skipItems fuel s
    | some ']' :: s => .ok s
    | _ => .error .expectedListCommaOrEnd

def skipMembers : Nat → Received → Except TextFault Received
  | 0, _ => .error .eofInObject
  | fuel + 1, s =>
    match skipSpace s with
    | [] => .error .eofInObject
    | some '"' :: s => do
      let s ← skipString s
      let s ← colon s
      let s ← skipValue fuel s
      match skipSpace s with
      | [] => .error .eofInObject
      | some ',' :: s => skipMembers fuel s
      | some '\x7d' :: s => .ok s
      | _ => .error .expectedObjectCommaOrEnd
    | _ => .error .keyNotString

end

/-- The number of levels a text may have, with one to spare. -/
def maxDepth : Nat := 128

/-- Steps enough for every text of this length. -/
def fuelFor (s : Received) : Nat := 2 * s.length + 2

def finish (s : Received) : Except TextFault Unit :=
  if (skipSpace s).isEmpty then .ok () else .error .trailingCharacters

end Reader

open Reader in
/-- The tree of a text that holds one value. -/
def parseReceived (s : Text.Received) : Except TextFault Json := do
  let (v, rest) ← value (fuelFor s) maxDepth s
  finish rest
  return v

def parse (s : String) : Except TextFault Json := parseReceived (s.toList.map some)

end DeliveryCharts.Json
