import DeliveryCharts.Template.Operation
import DeliveryCharts.Text.Blank
import DeliveryCharts.Text.Casing
import DeliveryCharts.Text.Utf8

/-!
The filters for texts and numbers.
-/

namespace DeliveryCharts.Template.Filter

open Decimal (Binary64)

def isAsciiPunctuation (c : Char) : Bool :=
  let n := c.toNat
  (33 ≤ n && n ≤ 47) || (58 ≤ n && n ≤ 64) || (91 ≤ n && n ≤ 96) || (123 ≤ n && n ≤ 126)

/-- The first letter of every word is an upper case letter, the others are not. -/
def titleChars : Bool → List Char → List Char
  | _, [] => []
  | start, c :: cs =>
    if isAsciiPunctuation c || Text.isBlank c then c :: titleChars true cs
    else if start then Text.upperChar c ++ titleChars false cs
    else Text.lowerChar c ++ titleChars false cs

def title (s : String) : String := .ofList (titleChars true s.toList)

def capitalize (s : String) : String :=
  match s.toList with
  | [] => ""
  | c :: cs => .ofList (Text.upperChar c ++ Text.lowerChars cs)

def replace (s old new : String) : String :=
  .ofList (Text.replace old.toList new.toList s.toList)

/-- Blanks, or the given characters, are dropped at both ends. -/
def trim (s : String) (chars : Option String) : String :=
  match chars with
  | none => Text.trim s
  | some chars =>
    let belongs := fun c ↦ chars.toList.contains c
    .ofList (((s.toList.dropWhile belongs).reverse.dropWhile belongs).reverse)

/-- Pieces between blanks, at most `limit` of them, the last one with everything left. -/
def splitBlanks : Nat → List Char → List (List Char)
  | 0, _ => []
  | limit + 1, cs =>
    match Text.trimStartChars cs with
    | [] => []
    | cs =>
      if limit = 0 then [cs]
      else
        cs.takeWhile (!Text.isBlank ·) :: splitBlanks limit (cs.dropWhile (!Text.isBlank ·))

def split (s : String) (separator : Option String) (cuts : Option Int) : List String :=
  let cs := s.toList
  let limit := match cuts with
    | some z => if z ≥ 0 then z.toNat else cs.length + 1
    | none => cs.length + 1
  let pieces := match separator with
    | none => splitBlanks (limit + 1) cs
    | some w =>
      if w.isEmpty then [] :: (cs.map fun c ↦ [c]) ++ [[]] else Text.splitWord w.toList limit cs
  pieces.map String.ofList

def lines (s : String) : List String := (Text.lines s.toList).map String.ofList

/-- Only text that is not empty so far is followed by the separator. -/
def join (separator : String) (items : List Value) : String :=
  items.foldl (fun s v ↦ (if s.isEmpty then s else s ++ separator) ++ v.toText) ""

def hexUpper (n : Nat) : Char := if n < 10 then .ofNat (48 + n) else .ofNat (55 + n)

def percentByte (b : UInt8) : List Char :=
  let c := Char.ofNat b.toNat
  if Text.isAsciiAlnum c || ['/', '.', '-', '_'].contains c then [c]
  else ['%', hexUpper (b.toNat / 16), hexUpper (b.toNat % 16)]

def percentEncode (s : String) : String := .ofList ((Text.utf8String s).flatMap percentByte)

/-- A text for a URL, or a query of the entries of a map. -/
def urlencode : Value → String
  | .map entries _ =>
    let shown := entries.filter fun e ↦ !e.2.isNone && !e.2.isUndefined
    Text.joinStrings "&" (shown.map fun e ↦
      percentEncode e.1.toText ++ "=" ++ percentEncode e.2.toText)
  | .none => ""
  | v => percentEncode v.toText

/-! Numbers. -/

/-- A decimal, or a word for a number that is not finite. -/
def readFloat (s : String) : Except Fault Binary64 :=
  let special := fun (negative : Bool) (word : List Char) ↦
    if word = ['n', 'a', 'n'] then some Binary64.nan
    else if word = ['i', 'n', 'f'] ∨ word = "infinity".toList then some (.infinity negative)
    else none
  let word := Text.asciiLower s.toList
  let named := match word with
    | '-' :: w => special true w
    | '+' :: w => special false w
    | w => special false w
  match Decimal.readDecimal? s.toList <|> named with
  | some x => .ok x
  | none =>
    .error (.invalid
      (if s.isEmpty then "cannot parse float from empty string" else "invalid float literal"))

def int (v : Value) : Except Fault Value :=
  match v with
  | .undefined _ => .ok (.int 0)
  | .none => .ok (.int 0)
  | .bool b => .ok (.int b.toNat)
  | .int z => .ok (.int z)
  | .float x => .ok (.int x.toInt128)
  | .text s _ =>
    match (Text.readInt? 10 s.toList).filter Value.isInt128 with
    | some z => .ok (.int z)
    | none => (readFloat s).map fun x ↦ .int x.toInt128
  | v => .error (.invalid s!"cannot convert {v.kind.name} to integer")

def float (v : Value) : Except Fault Value :=
  match v with
  | .undefined _ => .ok (.float (.ofInt 0))
  | .none => .ok (.float (.ofInt 0))
  | .text s _ => (readFloat s).map .float
  | v =>
    match v.float? with
    | some x => .ok (.float x)
    | none => .error (.invalid s!"cannot convert {v.kind.name} to float")

def abs (v : Value) : Except Fault Value :=
  match v with
  | .int z => .ok (.int z.natAbs)
  | .float x => .ok (.float (if x.sign then x.neg else x))
  | _ => .error (.invalid "cannot get absolute value")

/-- Half a unit is rounded away from zero. -/
def round (v : Value) (digits : Int) : Except Fault Value :=
  match v with
  | .int z => .ok (.int z)
  | .float x =>
    let scale := Binary64.ofFloat (Float.pow 10 (Float.ofInt digits))
    let rounded := Binary64.ofFloat (scale.mul x).toFloat.round
    .ok (.float (rounded.div scale))
  | v => .error (.invalid s!"cannot round value ({v.kind.name})")

end DeliveryCharts.Template.Filter
