/-!
Integers written with digits of a radix up to 36, and integers written in decimal.
-/

namespace DeliveryCharts.Text

def digit? (radix : Nat) (c : Char) : Option Nat :=
  let d? :=
    if '0' ≤ c ∧ c ≤ '9' then some (c.toNat - 48)
    else if 'a' ≤ c ∧ c ≤ 'z' then some (c.toNat - 87)
    else if 'A' ≤ c ∧ c ≤ 'Z' then some (c.toNat - 55)
    else none
  d?.filter (· < radix)

def isDigit (c : Char) : Bool := '0' ≤ c && c ≤ '9'

def isHexDigit (c : Char) : Bool := (digit? 16 c).isSome

/-- The value of a run of digits, continuing from the value of the digits before it. -/
def readDigits? (radix : Nat) : Nat → List Char → Option Nat
  | acc, [] => some acc
  | acc, c :: cs => (digit? radix c).bind fun d ↦ readDigits? radix (acc * radix + d) cs

/-- At least one digit, and nothing else. -/
def readUnsigned? (radix : Nat) (cs : List Char) : Option Nat :=
  if cs.isEmpty then none else readDigits? radix 0 cs

/-- A natural number, perhaps with a plus sign. -/
def readNat? (radix : Nat) : List Char → Option Nat
  | '+' :: cs => readUnsigned? radix cs
  | cs => readUnsigned? radix cs

/-- An integer, perhaps with a sign. -/
def readInt? (radix : Nat) : List Char → Option Int
  | '-' :: cs => (readUnsigned? radix cs).map fun n ↦ -(n : Int)
  | cs => (readNat? radix cs).map fun n ↦ (n : Int)

def digitChar (d : Nat) : Char := if d < 10 then Char.ofNat (48 + d) else Char.ofNat (87 + d)

/-- The digits of a number, the most significant first. -/
def digits (radix n : Nat) : List Char :=
  go n [] n
where
  go : Nat → List Char → Nat → List Char
    | 0, acc, n => digitChar (n % radix) :: acc
    | fuel + 1, acc, n =>
      if n < radix then digitChar n :: acc
      else go fuel (digitChar (n % radix) :: acc) (n / radix)

def decimal (n : Nat) : List Char := digits 10 n

def decimalInt : Int → List Char
  | .ofNat n => decimal n
  | .negSucc n => '-' :: decimal (n + 1)

def ofNat (n : Nat) : String := .ofList (decimal n)

def ofInt (z : Int) : String := .ofList (decimalInt z)

/-- The digits behind `width - length` zeros. -/
def padded (width : Nat) (cs : List Char) : List Char :=
  List.replicate (width - cs.length) '0' ++ cs

end DeliveryCharts.Text
