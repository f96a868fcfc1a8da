import DomainModel.Decimal
import DomainModel.Toml.Basic

/-! # TOML numbers

Integers are written in base 10 with an optional sign, or without sign in the bases 16, 8 and 2
behind a mark; they fit a signed 64-bit word. Floats have a fraction, an exponent or both, or are
one of the words `inf` and `nan`. An underscore may stand between two digits. -/

namespace DomainModel.Toml.Number

/-- The digits without the underscores between them. -/
def plainDigits (isDigit : Char → Bool) : List Char → Option (List Char)
  | [] => none
  | [c] => if isDigit c then some [c] else none
  | c :: '_' :: rest => if isDigit c then (c :: ·) <$> plainDigits isDigit rest else none
  | c :: rest => if isDigit c then (c :: ·) <$> plainDigits isDigit rest else none

/-- Decimal digits without leading zero. -/
def wholeDigits (cs : List Char) : Option (List Char) :=
  match cs with
  | '0' :: _ :: _ => none
  | cs => plainDigits Char.isDigit cs

/-- The sign at the front of a number, as negative or not, and what follows it. -/
def splitSign : List Char → Bool × List Char
  | '-' :: rest => (true, rest)
  | '+' :: rest => (false, rest)
  | cs => (false, cs)

/-- An integer that fits a signed 64-bit word. -/
def inWord (i : Int) : Option Int :=
  if -9223372036854775808 ≤ i ∧ i ≤ 9223372036854775807 then some i else none

/-- An integer of a base that has a mark. -/
def markedInteger (base : Nat) (cs : List Char) : Option Int := do
  inWord (Digits.value base (← plainDigits (Digits.isDigitOf base) cs))

def integer? (token : List Char) : Option Int :=
  match token with
  | '0' :: 'x' :: rest => markedInteger 16 rest
  | '0' :: 'o' :: rest => markedInteger 8 rest
  | '0' :: 'b' :: rest => markedInteger 2 rest
  | token => do
    let (negative, digits) := splitSign token
    let n : Int := Digits.value 10 (← wholeDigits digits)
    inWord (if negative then -n else n)

/-- The magnitude of a float from its whole part, its fraction and its exponent; at least one of the
latter two is there. -/
def magnitude? (unsigned : List Char) : Option Decimal := do
  let isMark := fun c => c == 'e' || c == 'E'
  let mantissa := unsigned.takeWhile (!isMark ·)
  let whole ← wholeDigits (mantissa.takeWhile (· != '.'))
  let fraction ← match mantissa.dropWhile (· != '.') with
    | [] => some []
    | _ :: digits => plainDigits Char.isDigit digits
  match unsigned.dropWhile (!isMark ·) with
  | [] => if fraction.isEmpty then none else some ⟨whole ++ fraction, -fraction.length⟩
  | _ :: exponent =>
    let (negative, digits) := splitSign exponent
    let power : Int := Digits.value 10 (← plainDigits Char.isDigit digits)
    some ⟨whole ++ fraction, (if negative then -power else power) - fraction.length⟩

/-- The token is a float. One that rounds to positive infinity is refused; to negative infinity it
may round. -/
def isFloat (token : List Char) : Bool :=
  let (negative, unsigned) := splitSign token
  unsigned == ['i', 'n', 'f'] || unsigned == ['n', 'a', 'n'] ||
    (magnitude? unsigned).any fun d => negative || d.isFinite

end DomainModel.Toml.Number
