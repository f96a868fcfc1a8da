/-! # Digits

The values of digits and of sequences of digits, the first digit the most significant. -/

namespace DomainModel.Digits

/-- The value of a hexadecimal digit, in either case. -/
def hexValue (c : Char) : Option Nat :=
  if c.isDigit then some (c.toNat - 48)
  else if 'a' ≤ c ∧ c ≤ 'f' then some (c.toNat - 87)
  else if 'A' ≤ c ∧ c ≤ 'F' then some (c.toNat - 55)
  else none

/-- The character is a digit of the base, which is at most 16. -/
def isDigitOf (base : Nat) (c : Char) : Bool := (hexValue c).any (· < base)

/-- The number that digits of a base denote. -/
def value (base : Nat) (ds : List Char) : Nat :=
  ds.foldl (fun n c => base * n + (hexValue c).getD 0) 0

end DomainModel.Digits
