import DeliveryCharts.Text.Numeral
import DeliveryCharts.Text.Utf8

/-!
Base64 with the standard alphabet. Reading accepts exactly what writing produces: groups of four
symbols, the last one filled up with `=`, and no unused bit set.
-/

namespace DeliveryCharts.Text.Base64

def symbol (n : Nat) : UInt8 :=
  if n < 26 then .ofNat (65 + n)
  else if n < 52 then .ofNat (97 + (n - 26))
  else if n < 62 then .ofNat (48 + (n - 52))
  else if n = 62 then 43
  else 47

/-- The value of a symbol; `=` is none. -/
def value? (b : UInt8) : Option Nat :=
  let n := b.toNat
  if 65 ≤ n ∧ n ≤ 90 then some (n - 65)
  else if 97 ≤ n ∧ n ≤ 122 then some (n - 97 + 26)
  else if 48 ≤ n ∧ n ≤ 57 then some (n - 48 + 52)
  else if n = 43 then some 62
  else if n = 47 then some 63
  else none

def padding : UInt8 := 61

def encode : Bytes → Bytes
  | a :: b :: c :: rest =>
    let n := a.toNat * 0x10000 + b.toNat * 0x100 + c.toNat
    symbol (n / 0x40000) :: symbol (n / 0x1000 % 64) :: symbol (n / 64 % 64) :: symbol (n % 64) ::
      encode rest
  | [a, b] =>
    let n := a.toNat * 0x100 + b.toNat
    [symbol (n / 0x400), symbol (n / 0x10 % 64), symbol (n % 0x10 * 4), padding]
  | [a] => [symbol (a.toNat / 4), symbol (a.toNat % 4 * 16), padding, padding]
  | [] => []

/-- Why bytes are no base64. -/
inductive Fault where
  | badSymbol (b : UInt8) (offset : Nat)
  | badLength (length : Nat)
  | badPadding
  | unusedBits (last : UInt8) (offset : Nat)
  deriving DecidableEq, Repr

def Fault.message : Fault → String
  | badSymbol b offset => s!"Invalid symbol {b.toNat}, offset {offset}."
  | badLength length => s!"Invalid input length: {length}"
  | badPadding => "Invalid padding"
  | unusedBits last offset => s!"Invalid last symbol {last.toNat}, offset {offset}."

/-- The symbols of the last group and the number of `=` behind them. A misplaced `=` is reported
where it stands, but where a symbol follows, the first `=` is. -/
def lastGroup (offset : Nat) : Nat → List (UInt8 × Nat) → Nat → Bytes →
    Except Fault (List (UInt8 × Nat) × Nat)
  | _, symbols, pads, [] => .ok (symbols.reverse, pads)
  | index, symbols, pads, b :: bytes =>
    if b = padding then
      if index < 2 then .error (.badSymbol b (offset + index))
      else lastGroup offset (index + 1) symbols (pads + 1) bytes
    else if pads > 0 then .error (.badSymbol padding (offset + (index - pads)))
    else
      match value? b with
      | none => .error (.badSymbol b (offset + index))
      | some v => lastGroup offset (index + 1) ((b, v) :: symbols) pads bytes

/-- The bytes of the last group. -/
def decodeLast (offset : Nat) (bytes : Bytes) : Except Fault Bytes := do
  let (symbols, pads) ← lastGroup offset 0 [] 0 bytes
  let last := fun b ↦ Fault.unusedBits b (offset + symbols.length - 1)
  match symbols with
  | [] => return []
  | [_] => throw (.badLength (offset + 1))
  | [(_, v), (b, w)] =>
    if pads ≠ 2 then throw .badPadding
    if w % 16 ≠ 0 then throw (last b)
    return [.ofNat (v * 4 + w / 16)]
  | [(_, v), (_, w), (b, x)] =>
    if pads ≠ 1 then throw .badPadding
    if x % 4 ≠ 0 then throw (last b)
    return [.ofNat (v * 4 + w / 16), .ofNat (w % 16 * 16 + x / 4)]
  | (_, v) :: (_, w) :: (_, x) :: (_, y) :: _ =>
    return [.ofNat (v * 4 + w / 16), .ofNat (w % 16 * 16 + x / 4), .ofNat (x % 4 * 64 + y)]

/-- Groups of four symbols, while more than four bytes are left. -/
def decodeFrom (offset : Nat) : Bytes → Except Fault Bytes
  | a :: b :: c :: d :: e :: rest => do
    let read := fun (i : Nat) (s : UInt8) ↦
      match value? s with
      | some v => Except.ok v
      | none => .error (.badSymbol s (offset + i))
    let v ← read 0 a
    let w ← read 1 b
    let x ← read 2 c
    let y ← read 3 d
    let more ← decodeFrom (offset + 4) (e :: rest)
    return .ofNat (v * 4 + w / 16) :: .ofNat (w % 16 * 16 + x / 4) :: .ofNat (x % 4 * 64 + y) ::
      more
  | bytes => decodeLast offset bytes

/-- A single byte too much that is no symbol is reported before anything else. -/
def decode (bytes : Bytes) : Except Fault Bytes :=
  match bytes.getLast? with
  | some b =>
    if bytes.length % 4 = 1 ∧ b ≠ padding ∧ value? b = none then
      .error (.badSymbol b (bytes.length - 1))
    else decodeFrom 0 bytes
  | none => .ok []

end DeliveryCharts.Text.Base64
