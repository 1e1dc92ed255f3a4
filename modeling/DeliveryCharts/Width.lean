/-!
Powers of two and of ten, and the integers that fit a number of bits.
-/

namespace DeliveryCharts

def twoPow (n : Nat) : Nat := Nat.pow 2 n

def tenPow (n : Nat) : Nat := Nat.pow 10 n

namespace Width

/-- One bit stands for the sign. -/
def signed (bits : Nat) (z : Int) : Bool :=
  -(twoPow (bits - 1) : Int) ≤ z && z < (twoPow (bits - 1) : Int)

def unsigned (bits : Nat) (z : Int) : Bool := 0 ≤ z && z < (twoPow bits : Int)

/-- The nearest integer that fits. -/
def clamp (bits : Nat) (z : Int) : Int :=
  if z < -(twoPow (bits - 1) : Int) then -(twoPow (bits - 1) : Int)
  else if z < (twoPow (bits - 1) : Int) then z
  else (twoPow (bits - 1) : Int) - 1

end Width

end DeliveryCharts
