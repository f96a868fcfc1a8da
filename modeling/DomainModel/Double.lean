/-! # Doubles

The precision and the range of double-precision numbers, as far as natural numbers show them.

* `Double.nearest`: a natural number, rounded to the nearest double; a tie goes to the even one.
* `Double.overflow`: the magnitude from which on numbers round to no finite double.
* `nearest_of_lt`: a number of no more bits than a double holds is not changed by rounding.
-/

namespace DomainModel.Double

/-- The number of bits in the significand of a double. -/
def precision : Nat := 53

/-- The least magnitude that rounds to no finite double. -/
def overflow : Nat := Nat.pow 2 1024 - Nat.pow 2 970

/-- The distance from one double to the next at a natural number; below it numbers differ in their
last bit only. -/
def spacing (n : Nat) : Nat := Nat.pow 2 (n.log2 + 1 - precision)

/-- **The double nearest to a natural number.** -/
def nearest (n : Nat) : Nat :=
  let below := n / spacing n
  let rest := n % spacing n
  let staysBelow := 2 * rest < spacing n || (2 * rest == spacing n && below % 2 == 0)
  (if staysBelow then below else below + 1) * spacing n

theorem spacing_of_lt {n : Nat} (h : n < Nat.pow 2 precision) : spacing n = 1 := by
  have hlog : n.log2 + 1 - precision = 0 := by
    by_cases h0 : n = 0
    · subst h0; rfl
    · have := (Nat.log2_lt h0).2 h
      omega
  rw [spacing, hlog]

theorem nearest_of_lt {n : Nat} (h : n < Nat.pow 2 precision) : nearest n = n := by
  simp [nearest, spacing_of_lt h, Nat.mod_one]

end DomainModel.Double
