import DeliveryCharts.Decimal.Binary64
import DeliveryCharts.Text.Numeral

/-!
The shortest decimal text of a binary number: the fewest digits that read back as the number, and
of those the nearest.
-/

namespace DeliveryCharts.Decimal

/-- The magnitude as a quotient. -/
def magnitude (x : Binary64) : Nat × Nat :=
  if x.scale ≥ 1074 then (x.mantissa * twoPow (x.scale - 1074), 1)
  else (x.mantissa, twoPow (1074 - x.scale))

/-- The number of digits before the point, negative or zero when zeros follow the point. -/
def pointOf (num den : Nat) : Int :=
  if num ≥ den then ((Text.decimal (num / den)).length : Int)
  else
    let zeros := (Text.decimal (den / num)).length - 1
    -- 10 ^ zeros ≤ den / num < 10 ^ (zeros + 1)
    if num * tenPow zeros ≥ den then 1 - (zeros : Int) else -(zeros : Int)

/-- The neighbours of `num / den` on the grid of `10 ^ exponent`, nearer first, the even one of two
at the same distance. -/
def neighbours (num den : Nat) (exponent : Int) : List Nat :=
  let n := if exponent ≥ 0 then num else num * tenPow (-exponent).toNat
  let d := if exponent ≥ 0 then den * tenPow exponent.toNat else den
  let q := n / d
  let r := n % d
  if 2 * r > d ∨ (2 * r = d ∧ q % 2 = 1) then [q + 1, q] else [q, q + 1]

/-- Digits and the power of ten they count, for a finite number other than zero. -/
def shortest (x : Binary64) : Nat × Int :=
  let (num, den) := magnitude x
  let point := pointOf num den
  let plain := x.bits.toNat % twoPow 63
  let reads := fun (exponent : Int) (d : Nat) ↦
    (Binary64.ofDecimal false d exponent).bits.toNat == plain
  let rec search : Nat → Nat → Nat × Int
    | 0, n => (0, n)
    | fuel + 1, n =>
      let exponent := point - (n : Int)
      match (neighbours num den exponent).find? (reads exponent) with
      | some d => (d, exponent)
      | none => search fuel (n + 1)
  search 18 1

/-- How a number is written: where positional notation ends, and whether a positive exponent has
its sign. Whole numbers written positionally end in `.0`. -/
structure Style where
  isPositional : Int → Bool
  plus : Bool

/-- JSON: positional from five zeros after the point up to sixteen digits before it. -/
def Style.json : Style := ⟨fun point ↦ -5 < point ∧ point ≤ 16, true⟩

def Style.yaml : Style := ⟨fun point ↦ -5 < point ∧ point ≤ 16, false⟩

def Style.positional : Style := ⟨fun _ ↦ true, false⟩

/-- The text of a finite number. -/
def render (style : Style) (x : Binary64) : List Char :=
  let sign := if x.sign then ['-'] else []
  if x.isZero then sign ++ ['0', '.', '0']
  else
    let (d, e) := shortest x
    let ds := ((Text.decimal d).reverse.dropWhile (· == '0')).reverse
    let point := ((Text.decimal d).length : Int) + e
    let body :=
      if style.isPositional point then
        if point ≤ 0 then '0' :: '.' :: List.replicate (-point).toNat '0' ++ ds
        else if (ds.length : Int) ≤ point then
          ds ++ List.replicate (point.toNat - ds.length) '0' ++ ['.', '0']
        else ds.take point.toNat ++ '.' :: ds.drop point.toNat
      else
        let exponent := point - 1
        let mark := if exponent < 0 then [] else if style.plus then ['+'] else []
        let head := match ds with
          | [] => []
          | [c] => [c]
          | c :: rest => c :: '.' :: rest
        head ++ 'e' :: mark ++ Text.decimalInt exponent
    sign ++ body

end DeliveryCharts.Decimal
