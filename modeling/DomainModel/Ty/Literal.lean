import DomainModel.Digits
import DomainModel.Ty.Basic

/-! # Types of number literals

A decimal literal is an `Integer` when the number it denotes has no fractional part and a `Float`
otherwise: `1.50` is a float, `1.5e1` and `2.0` are integers. The question is settled on the written
digits. The *scale* of a literal is the number of places after the point that are left once trailing
zeros are dropped and the exponent has moved the point; it may be negative, and the literal is an
integer exactly when the scale is not positive.

Literals come from a model without having been checked, so every text has a type: signs in front are
skipped however many there are, and an exponent that is no number counts as zero. -/

namespace DomainModel.Literal

/-- The exponent of a literal. One with several signs in front of its digits has no value of its
own: it lies beyond every bound, on the side of its first sign. -/
inductive Exponent where
  | finite (value : Int)
  | beyond (negative : Bool)
deriving DecidableEq

def isSign (c : Char) : Bool := c == '+' || c == '-'

/-- The exponent that a text after the exponent mark denotes. -/
def exponentOf (text : List Char) : Exponent :=
  let digits := text.dropWhile isSign
  if digits.isEmpty || !digits.all Char.isDigit then .finite 0
  else match text.takeWhile isSign with
    | [] | ['+'] => .finite (Digits.value 10 digits)
    | ['-'] => .finite (-(Digits.value 10 digits : Int))
    | signs => .beyond (signs.head? == some '-')

/-- The text without the zeros at its end. -/
def dropTrailingZeros (cs : List Char) : List Char := (cs.reverse.dropWhile (· == '0')).reverse

/-- The size of a text in UTF-8, in which a digit counts one. -/
def byteLength (cs : List Char) : Nat := cs.foldr (fun c total => c.utf8Size + total) 0

/-- The places after the point that count before the exponent moves it. Without a fraction, the
zeros that end the whole part lower it below zero. -/
def mantissaScale (mantissa : List Char) : Int :=
  let whole := mantissa.takeWhile (· != '.')
  let fraction := dropTrailingZeros ((mantissa.dropWhile (· != '.')).drop 1)
  if fraction.isEmpty then (dropTrailingZeros whole).length - whole.length
  else byteLength fraction

/-- A scale without positive places, the exponent taken into account. -/
def scaleIsWhole (scale : Int) : Exponent → Bool
  | .finite e => scale ≤ e
  | .beyond negative => !negative

/-- Whether the literal denotes an integer. -/
def isWhole (literal : List Char) : Bool :=
  let unsigned := literal.dropWhile isSign
  let isMark := fun c => c == 'e' || c == 'E'
  let mantissa := unsigned.takeWhile (!isMark ·)
  match unsigned.dropWhile (!isMark ·) with
  | [] => scaleIsWhole (mantissaScale mantissa) (.finite 0)
  | _ :: exponent => scaleIsWhole (mantissaScale mantissa) (exponentOf exponent)

/-- **The type of a number literal.** -/
def type (literal : String) : Ty := if isWhole literal.toList then .integer else .float

end DomainModel.Literal
