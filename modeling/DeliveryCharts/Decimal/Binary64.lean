import DeliveryCharts.Width

/-!
Numbers of the 64-bit binary format, held as their bits, and the nearest such number to a decimal
or a quotient (ties to the even neighbour).
-/

namespace DeliveryCharts.Decimal

structure Binary64 where
  bits : UInt64
  deriving DecidableEq, Repr, Inhabited

namespace Binary64

def sign (x : Binary64) : Bool := x.bits.toNat ≥ twoPow 63

def exponentField (x : Binary64) : Nat := x.bits.toNat / twoPow 52 % 2048

def fraction (x : Binary64) : Nat := x.bits.toNat % twoPow 52

def isFinite (x : Binary64) : Bool := x.exponentField != 2047

def isNaN (x : Binary64) : Bool := x.exponentField == 2047 && x.fraction != 0

/-- The magnitude of a finite number is `mantissa * 2 ^ (scale - 1074)`. -/
def mantissa (x : Binary64) : Nat :=
  if x.exponentField = 0 then x.fraction else x.fraction + twoPow 52

def scale (x : Binary64) : Nat := x.exponentField - 1

def isZero (x : Binary64) : Bool := x.mantissa == 0 && x.isFinite

def withSign (negative : Bool) (magnitude : Nat) : Binary64 :=
  ⟨.ofNat (if negative then magnitude + twoPow 63 else magnitude)⟩

def infinity (negative : Bool) : Binary64 := withSign negative (2047 * twoPow 52)

/-- The nearest number of magnitude `num / den * 2 ^ (scale - 1074)` with a mantissa of at most 53
bits: the mantissa is rounded at this scale, and a carry moves on to the next. -/
def roundAt (negative : Bool) (num den scale : Nat) : Binary64 :=
  let q := num / den
  let r := num % den
  let q := if 2 * r > den ∨ (2 * r = den ∧ q % 2 = 1) then q + 1 else q
  let scale := if q = twoPow 53 then scale + 1 else scale
  let q := if q = twoPow 53 then twoPow 52 else q
  if q < twoPow 52 then withSign negative q
  else if scale ≥ 2046 then infinity negative
  else withSign negative ((scale + 1) * twoPow 52 + (q - twoPow 52))

/-- The number nearest to `num / den`. -/
def ofQuotient (negative : Bool) (num den : Nat) : Binary64 :=
  if num = 0 then withSign negative 0
  else
    -- the quotient lies between 2 ^ (e - 1) and 2 ^ (e + 1)
    let e : Int := (num.log2 : Int) - den.log2
    let low : Int := if e ≥ 0 then (if num < den * twoPow e.toNat then e - 1 else e)
      else (if num * twoPow (-e).toNat < den then e - 1 else e)
    let scale : Nat := (low - 52 + 1074).toNat
    let shift : Int := (scale : Int) - 1074
    if shift ≥ 0 then roundAt negative num (den * twoPow shift.toNat) scale
    else roundAt negative (num * twoPow (-shift).toNat) den scale

/-- The number nearest to `digits * 10 ^ exponent`. Far out of range nothing is computed. -/
def ofDecimal (negative : Bool) (digits : Nat) (exponent : Int) : Binary64 :=
  if digits = 0 then withSign negative 0
  else
    let size : Int := digits.log2
    if exponent > 400 then infinity negative
    else if size + 3 * exponent < -1200 ∧ 3 * exponent < -1200 - size then withSign negative 0
    else if exponent ≥ 0 then ofQuotient negative (digits * tenPow exponent.toNat) 1
    else ofQuotient negative digits (tenPow (-exponent).toNat)

def ofInt (z : Int) : Binary64 := ofQuotient (z < 0) z.natAbs 1

/-- The number nearest to the product of two finite numbers. -/
def nearestProduct (x y : Binary64) : Binary64 :=
  ofQuotient (x.sign != y.sign) (x.mantissa * y.mantissa * twoPow (x.scale + y.scale))
    (twoPow 2148)

/-- The number nearest to the quotient of two finite numbers, the second of which is not zero. -/
def nearestQuotient (x y : Binary64) : Binary64 :=
  ofQuotient (x.sign != y.sign) (x.mantissa * twoPow x.scale) (y.mantissa * twoPow y.scale)

def toFloat (x : Binary64) : Float := Float.ofBits x.bits

def ofFloat (x : Float) : Binary64 := ⟨x.toBits⟩

/-- The value, when it is whole. -/
def toInt? (x : Binary64) : Option Int :=
  if !x.isFinite then none
  else
    let m := x.mantissa
    let magnitude? :=
      if x.scale ≥ 1074 then some (m * twoPow (x.scale - 1074))
      else if m % twoPow (1074 - x.scale) = 0 then some (m / twoPow (1074 - x.scale))
      else none
    magnitude?.map fun n ↦ if x.sign then -(n : Int) else n

/-- The value without its fractional digits. -/
def truncate (x : Binary64) : Int :=
  let m := x.mantissa
  let n := if x.scale ≥ 1074 then m * twoPow (x.scale - 1074) else m / twoPow (1074 - x.scale)
  if x.sign then -(n : Int) else n

def neg (x : Binary64) : Binary64 :=
  withSign (!x.sign) (x.bits.toNat % twoPow 63)

end Binary64

/-- A decimal as it is written: sign, digits before and after the point, and an exponent. At least
one digit stands before or after the point. -/
def readDecimal? (cs : List Char) : Option Binary64 :=
  let (negative, cs) : Bool × List Char :=
    match cs with
    | '-' :: r => (true, r)
    | '+' :: r => (false, r)
    | r => (false, r)
  let isDigit := fun c : Char ↦ '0' ≤ c && c ≤ '9'
  let value := fun ds : List Char ↦ ds.foldl (fun n c ↦ n * 10 + (c.toNat - 48)) 0
  let whole := cs.takeWhile isDigit
  let cs := cs.dropWhile isDigit
  let (part, cs) : List Char × List Char :=
    match cs with
    | '.' :: r => (r.takeWhile isDigit, r.dropWhile isDigit)
    | r => ([], r)
  if whole.isEmpty && part.isEmpty then none
  else
    let exponent? : Option Int :=
      match cs with
      | [] => some 0
      | c :: r =>
        if c != 'e' && c != 'E' then none
        else
          let (negativeExp, r) : Bool × List Char :=
            match r with
            | '-' :: r => (true, r)
            | '+' :: r => (false, r)
            | r => (false, r)
          if r.isEmpty || !r.all isDigit then none
          else some (if negativeExp then -(value r : Int) else value r)
    exponent?.map fun e ↦ .ofDecimal negative (value (whole ++ part)) (e - part.length)

end DeliveryCharts.Decimal
