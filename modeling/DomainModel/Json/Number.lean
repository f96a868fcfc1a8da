import DomainModel.Digits
import DomainModel.Double

/-! # Number lexemes

`Lexeme.scan` takes the longest number from the front of a text: an optional minus sign, digits
without leading zero, an optional fraction and an optional exponent. `Lexeme.inRange` tells whether
the number has a value.

The value of a number is a double, found with two roundings: of a significand that has room in a
64-bit word, and of a power of ten. Close to the end of the range of doubles the roundings decide,
and not the number as written: `1.7976931348623158e308` has no value, though the largest double is
the one nearest to it, and `179769313486231581e291`, which lies farther out, has one. -/

namespace DomainModel.Json

/-- A number as written, in its parts. -/
structure Lexeme where
  /-- The minus sign, if there is one. -/
  sign : List Char
  /-- The digits before the point. -/
  whole : List Char
  /-- The digits behind the point. -/
  fraction : List Char
  /-- The mark and the sign of the exponent. -/
  mark : List Char
  /-- The digits of the exponent. -/
  exponent : List Char
deriving DecidableEq

namespace Lexeme

/-- The number as written. -/
def text (n : Lexeme) : List Char :=
  n.sign ++ n.whole ++ (if n.fraction.isEmpty then [] else '.' :: n.fraction) ++ n.mark ++
    n.exponent

/-- The digits at the front of a text, at least one, and the rest. -/
def digits (cs : List Char) : Option (List Char × List Char) :=
  match cs.takeWhile Char.isDigit with
  | [] => none
  | ds => some (ds, cs.dropWhile Char.isDigit)

/-- The whole part: a zero alone, or digits that start with another one. -/
def scanWhole : List Char → Option (List Char × List Char)
  | '0' :: rest => some (['0'], rest)
  | cs => digits cs

/-- The fraction, if a point follows. -/
def scanFraction : List Char → Option (List Char × List Char)
  | '.' :: rest => digits rest
  | cs => some ([], cs)

/-- The mark and the sign of the exponent, if a mark follows. -/
def scanMark : List Char → List Char × List Char
  | c :: s :: rest =>
    if c == 'e' || c == 'E' then
      if s == '+' || s == '-' then ([c, s], rest) else ([c], s :: rest)
    else ([], c :: s :: rest)
  | [c] => if c == 'e' || c == 'E' then ([c], []) else ([], [c])
  | [] => ([], [])

/-- The longest number at the front of a text, and the rest. -/
def scan (cs : List Char) : Option (Lexeme × List Char) := do
  let (sign, cs) := match cs with
    | '-' :: rest => (['-'], rest)
    | cs => ([], cs)
  let (whole, cs) ← scanWhole cs
  let (fraction, cs) ← scanFraction cs
  let (mark, cs) := scanMark cs
  let (exponent, cs) ← if mark.isEmpty then some ([], cs) else digits cs
  return (⟨sign, whole, fraction, mark, exponent⟩, cs)

/-- Append digits to a significand as long as it has room in a 64-bit word. It gives the significand
and the digits that are left over. -/
def fill (significand : Nat) : List Char → Nat × List Char
  | [] => (significand, [])
  | c :: cs =>
    let longer := 10 * significand + Digits.value 10 [c]
    if longer < UInt64.size then fill longer cs else (significand, c :: cs)

/-- The significand and the power of ten that are multiplied. Digits that have no room count only by
their number, and only before the point. The fraction starts anew to look for room. -/
def parts (n : Lexeme) : Nat × Int :=
  let (significand, before) := fill 0 n.whole
  let (significand, behind) := fill significand n.fraction
  let power : Int := Digits.value 10 n.exponent
  let shift := if n.mark.contains '-' then -power else power
  (significand, shift + before.length - n.fraction.length + behind.length)

/-- The greatest power of ten that is a finite double. -/
def greatestPower : Int := 308

/-- The product of a significand and a power of ten, both rounded, is finite as a double. -/
def isFiniteProduct (significand : Nat) (exponent : Int) : Bool :=
  if significand == 0 || exponent < 0 then true
  else if exponent > greatestPower then false
  else
    Double.nearest significand * Double.nearest (Nat.pow 10 exponent.toNat) < Double.overflow

/-- The number has a value. -/
def inRange (n : Lexeme) : Bool := isFiniteProduct n.parts.1 n.parts.2

end Lexeme

end DomainModel.Json
