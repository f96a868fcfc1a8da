import DomainModel.Digits
import DomainModel.Double

/-! # Decimal numbers and the range of doubles

A decimal number is a sequence of digits, scaled by a power of ten. `Decimal.isFinite` tells whether
its magnitude, rounded to the nearest double, is finite. -/

namespace DomainModel

/-- The magnitude `digits * 10 ^ exponent`. -/
structure Decimal where
  digits : List Char
  exponent : Int
deriving DecidableEq

namespace Decimal

/-- The number of decimal places up to which a magnitude is surely below `Double.overflow`. -/
def safePlaces : Nat := 308

/-- The digits from the first one on that is not zero. -/
def significand (d : Decimal) : List Char := d.digits.dropWhile (· == '0')

/-- The magnitude rounds to a finite double. With `n` significant digits it lies between
`10 ^ (n + exponent - 1)` and `10 ^ (n + exponent)`, so only numbers of 309 places have to be
computed. -/
def isFinite (d : Decimal) : Bool :=
  let places := d.significand.length + d.exponent
  if d.significand.isEmpty || places ≤ safePlaces then true
  else if places > safePlaces + 1 then false
  else
    Digits.value 10 d.significand * Nat.pow 10 d.exponent.toNat <
      Double.overflow * Nat.pow 10 (-d.exponent).toNat

end Decimal

end DomainModel
