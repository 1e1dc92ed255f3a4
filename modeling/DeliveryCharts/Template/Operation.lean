import DeliveryCharts.Template.Order
import DeliveryCharts.Text.Lines

/-!
What the operators of expressions compute. Integers have 128 bits; a result outside of them is a
fault.
-/

namespace DeliveryCharts

open Decimal (Binary64)

namespace Decimal.Binary64

def nan : Binary64 := ⟨.ofNat (4095 * twoPow 51)⟩

def add (x y : Binary64) : Binary64 := ofFloat (x.toFloat + y.toFloat)

def sub (x y : Binary64) : Binary64 := ofFloat (x.toFloat - y.toFloat)

def mul (x y : Binary64) : Binary64 := ofFloat (x.toFloat * y.toFloat)

def div (x y : Binary64) : Binary64 := ofFloat (x.toFloat / y.toFloat)

def pow (x y : Binary64) : Binary64 := ofFloat (x.toFloat.pow y.toFloat)

/-- The magnitude in units of `2 ^ (-1074)`. -/
def units (x : Binary64) : Nat := x.mantissa * twoPow x.scale

/-- What is left of `x` after a whole number of times `y`, with the sign of `x`. -/
def remainder (x y : Binary64) : Binary64 :=
  if !x.isFinite || y.isNaN || y.isZero then nan
  else if !y.isFinite then x
  else if x.units % y.units = 0 then withSign x.sign 0
  else ofQuotient x.sign (x.units % y.units) (twoPow 1074)

/-- The whole number of times that leaves a remainder which is not negative. -/
def quotient (x y : Binary64) : Binary64 :=
  let q := x.div y
  let whole :=
    if !q.isFinite then q
    else if q.truncate = 0 then withSign q.sign 0
    else ofInt q.truncate
  let r := remainder x y
  if r.sign && !r.isZero && !r.isNaN then
    if y.sign then whole.add (ofInt 1) else whole.sub (ofInt 1)
  else whole

/-- The nearest integer of 128 bits towards zero; zero if there is no number. -/
def toInt128 (x : Binary64) : Int :=
  if x.isNaN then 0
  else if x.isFinite then Width.clamp 128 x.truncate
  else Width.clamp 128 (if x.sign then -(twoPow 127 : Int) else twoPow 127)

end Decimal.Binary64

namespace Template

inductive Operator where
  | add
  | sub
  | mul
  | div
  | floorDiv
  | rem
  | pow
  | concat
  | eq
  | ne
  | lt
  | le
  | gt
  | ge
  | member
  deriving DecidableEq, Repr

def Operator.symbol : Operator → String
  | add => "+"
  | sub => "-"
  | mul => "*"
  | div => "/"
  | floorDiv => "//"
  | rem => "%"
  | pow => "**"
  | concat => "~"
  | eq => "=="
  | ne => "!="
  | lt => "<"
  | le => "<="
  | gt => ">"
  | ge => ">="
  | member => "in"

namespace Value

def isInt128 (z : Int) : Bool := Width.signed 128 z

/-- Two operands of an arithmetic operator on common ground. -/
inductive Operands where
  | ints (a b : Int)
  | floats (x y : Binary64)
  | texts (s t : String)

def operands? : Value → Value → Option Operands
  | text s _, text t _ => some (.texts s t)
  | float x, w => w.float?.map (.floats x)
  | v, float y => v.float?.map (.floats · y)
  | v, w =>
    match v.int?, w.int? with
    | some a, some b => if isInt128 a && isInt128 b then some (.ints a b) else Option.none
    | _, _ => Option.none

def unsupported (op : Operator) (v w : Value) : Fault :=
  .invalid (s!"tried to use {op.symbol} operator on unsupported types " ++
    s!"{v.kind.name} and {w.kind.name}")

def uncomputable (op : Operator) (v w : Value) : Fault :=
  .invalid s!"unable to calculate {v.toText} {op.symbol} {w.toText}"

def isList : Value → Bool
  | list _ _ => true
  | _ => false

def items? : Value → Option (List Value)
  | list items _ => some items
  | _ => Option.none

/-- Arithmetic where integers are treated by one function and floats by another. -/
def arithmetic (op : Operator) (ints : Int → Int → Option Int)
    (floats : Binary64 → Binary64 → Binary64) (v w : Value) : Except Fault Value :=
  match operands? v w with
  | some (.ints a b) =>
    match (ints a b).filter isInt128 with
    | some z => .ok (int z)
    | Option.none => .error (uncomputable op v w)
  | some (.floats x y) => .ok (float (floats x y))
  | _ => .error (unsupported op v w)

def add (v w : Value) : Except Fault Value :=
  match v, w with
  | list vs _, list ws _ => .ok (list (vs ++ ws) true)
  | text s _, text t _ => .ok (ofString (s ++ t))
  | v, w => arithmetic .add (fun a b ↦ some (a + b)) Binary64.add v w

/-- How often something is repeated. -/
def count? : Value → Option Nat
  | int z => if Width.unsigned 64 z then some z.toNat else Option.none
  | bool b => some b.toNat
  | float x => x.toInt?.bind fun z ↦ if Width.unsigned 63 z then some z.toNat else Option.none
  | _ => Option.none

def repeated (n : Nat) (s : String) : String := .ofList (List.replicate n s.toList).flatten

def mul (v w : Value) : Except Fault Value :=
  let times := fun (other : Value) (reason : String) ↦
    match other.count? with
    | some n => Except.ok n
    | Option.none => .error (.invalid reason)
  let texts := "strings can only be multiplied with integers"
  let lists := "sequences and iterables can only be multiplied with integers"
  match v, w with
  | text s _, w => do return ofString (repeated (← times w texts) s)
  | v, text s _ => do return ofString (repeated (← times v texts) s)
  | list items _, w => do return list (List.replicate (← times w lists) items).flatten true
  | v, list items _ => do return list (List.replicate (← times v lists) items).flatten true
  | v, w => arithmetic .mul (fun a b ↦ some (a * b)) Binary64.mul v w

def div (v w : Value) : Except Fault Value :=
  match v.float?, w.float? with
  | some x, some y => .ok (float (x.div y))
  | _, _ => .error (unsupported .div v w)

/-- Powers with more than 128 bits are not computed. -/
def powInt (a b : Int) : Option Int :=
  if !Width.unsigned 32 b then Option.none
  else if b = 0 then some 1
  else if a.natAbs ≤ 1 then some (if b % 2 = 0 then a * a else a)
  else if b > 128 then Option.none
  else some (Int.pow a b.toNat)

def neg (v : Value) : Except Fault Value :=
  match v with
  | float x => .ok (float x.neg)
  | int z =>
    if isInt128 (-z) then .ok (int (-z)) else .error (.invalid "overflow")
  | _ => .error ⟨.invalidOperation, Option.none, Option.none⟩

/-- Whether a value is found in a text, a list or the keys of a map. -/
def contains (container v : Value) : Except Fault Bool :=
  match container with
  | undefined _ => .ok false
  | text s _ => .ok (Text.occurs v.toText.toList s.toList)
  | list items _ => .ok (items.any (equal · v))
  | map entries _ => .ok (find v entries).isSome
  | handle _ => .ok false
  | _ => .error (.invalid "cannot perform a containment check on this value")

def apply (op : Operator) (v w : Value) : Except Fault Value :=
  match op with
  | .add => add v w
  | .sub => arithmetic .sub (fun a b ↦ some (a - b)) Binary64.sub v w
  | .mul => mul v w
  | .div => div v w
  | .floorDiv =>
    match operands? v w with
    | some (.ints _ 0) => .error (uncomputable .floorDiv v w)
    | _ => arithmetic .floorDiv (fun a b ↦ some (a / b)) Binary64.quotient v w
  | .rem =>
    arithmetic .rem (fun a b ↦ if b = 0 then Option.none else some (a % b)) Binary64.remainder v w
  | .pow => arithmetic .pow powInt Binary64.pow v w
  | .concat => .ok (ofString (v.toText ++ w.toText))
  | .eq => .ok (bool (equal v w))
  | .ne => .ok (bool (!equal v w))
  | .lt => .ok (bool (compare v w).isLT)
  | .le => .ok (bool (compare v w).isLE)
  | .gt => .ok (bool (compare v w).isGT)
  | .ge => .ok (bool (compare v w).isGE)
  | .member => (contains w v).map bool

/-- An integer as far as 64 bits hold it. -/
def int64? : Value → Option Int
  | float x =>
    x.toInt?.bind fun z ↦
      if Width.signed 64 z || z == (twoPow 63 : Int) then some (Width.clamp 64 z) else Option.none
  | v => v.int?.filter (Width.signed 64)

/-- The position that an index means; a negative index counts from the end. -/
def position? (length : Nat) (index : Value) : Option Nat :=
  index.int64?.bind fun z ↦
    if 0 ≤ z then some z.toNat
    else if z.natAbs ≤ length then some (length - z.natAbs)
    else Option.none

/-- An item of a list, a character of a text, or what stands under a key. -/
def item? (v index : Value) : Option Value :=
  match v with
  | list items _ => (position? items.length index).bind (items[·]?)
  | text s _ =>
    (position? s.length index).bind fun i ↦ s.toList[i]?.map fun c ↦ ofString (.ofList [c])
  | map entries _ => find index entries
  | _ => Option.none

/-! Slices. -/

/-- Where a slice starts and how long it is. A bound that counts back beyond the start is far behind
the end. -/
def span (length : Nat) (start : Int) (stop : Option Int) : Nat × Nat :=
  let place := fun z : Int ↦
    if 0 ≤ z then z.toNat else if z.natAbs ≤ length then length - z.natAbs else twoPow 64 - z.natAbs
  let start := place start
  let stop := (stop.map place).getD length
  (start, stop - start)

/-- Every `step`-th item, the first one included. -/
def everyNth (step : Nat) : Nat → List α → List α
  | _, [] => []
  | 0, a :: as => a :: everyNth step (step - 1) as
  | n + 1, _ :: as => everyNth step n as

/-- The positions that a slice visits backwards. -/
def backwards (length : Nat) (start stop : Option Int) (step : Nat) : List Nat :=
  let place := fun z : Int ↦ if 0 ≤ z then z.toNat else ((length : Int) + z).toNat
  let start := match start with
    | Option.none => length - 1
    | some z => if z ≥ length then length - 1 else place z
  let stop := (stop.map place).getD 0
  let count := if stop = 0 then (start + step) / step else (start - stop + step - 1) / step
  (List.range count).map fun i ↦ start - i * step

def sliced (items : List α) (start stop : Option Int) (step : Int) : List α :=
  if step > 0 then
    let (start, count) := span items.length (start.getD 0) stop
    everyNth step.toNat 0 ((items.drop start).take count)
  else (backwards items.length start stop step.natAbs).filterMap (items[·]?)

def bound (v : Value) : Except Fault (Option Int) :=
  match v with
  | none => .ok Option.none
  | v =>
    match v.int64? with
    | some z => .ok (some z)
    | Option.none => .error (.invalid s!"cannot convert {v.kind.name} to i64")

def slice (v start stop step : Value) : Except Fault Value := do
  let start ← bound start
  let stop ← bound stop
  let step := (← bound step).getD 1
  if step = 0 then throw (.invalid "cannot slice by step size of 0")
  match v with
  | text s _ => return ofString (.ofList (sliced s.toList start stop step))
  | undefined _ => return ofList []
  | none => return ofList []
  | list items _ => return list (sliced items start stop step) true
  | v => throw (.invalid s!"value of type {v.kind.name} cannot be sliced")

/-- What a loop runs over: the items of a list, the keys of a map, the characters of a text. -/
def iterate? : Value → Option (List Value)
  | undefined _ => some []
  | none => some []
  | text s _ => some (s.toList.map fun c ↦ ofString (.ofList [c]))
  | list items _ => some items
  | map entries _ => some (entries.map Prod.fst)
  | _ => Option.none

def iterate (v : Value) : Except Fault (List Value) :=
  match v.iterate? with
  | some items => .ok items
  | Option.none => .error (.invalid s!"{v.kind.name} is not iterable")

end Value

end Template

end DeliveryCharts
