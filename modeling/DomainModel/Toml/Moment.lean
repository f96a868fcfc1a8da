import DomainModel.Digits

/-! # TOML dates and times

A moment is a date, a time, or both. A date exists in the calendar, a time has seconds and perhaps a
fraction of a second, and a date with a time may have an offset from universal time. A minute may
have a leap second. -/

namespace DomainModel.Toml.Moment

/-- The number that two decimal digits denote, if it lies between the bounds. -/
def twoDigits (low high : Nat) (a b : Char) : Option Nat :=
  let n := Digits.value 10 [a, b]
  if a.isDigit && b.isDigit && low ≤ n && n ≤ high then some n else none

def isLeapYear (year : Nat) : Bool := year % 4 == 0 && (year % 100 != 0 || year % 400 == 0)

def daysInMonth (year month : Nat) : Nat :=
  match month with
  | 2 => if isLeapYear year then 29 else 28
  | 4 | 6 | 9 | 11 => 30
  | _ => 31

/-- A year, a month and a day that exist, with hyphens between them. -/
def isDate (token : List Char) : Bool :=
  match token with
  | [y1, y2, y3, y4, '-', m1, m2, '-', d1, d2] =>
    let year := [y1, y2, y3, y4]
    year.all Char.isDigit &&
      (twoDigits 1 12 m1 m2).any fun month =>
        (twoDigits 1 (daysInMonth (Digits.value 10 year) month) d1 d2).isSome
  | _ => false

/-- What may follow the seconds: a fraction, if a point follows; then the rest. -/
def skipFraction (cs : List Char) : Option (List Char) :=
  match cs with
  | '.' :: rest => if rest.head?.any Char.isDigit then some (rest.dropWhile Char.isDigit) else none
  | cs => some cs

/-- What follows a time at the front of a token. -/
def skipTime (token : List Char) : Option (List Char) :=
  match token with
  | h1 :: h2 :: ':' :: m1 :: m2 :: ':' :: s1 :: s2 :: rest =>
    if (twoDigits 0 23 h1 h2).isSome && (twoDigits 0 59 m1 m2).isSome &&
        (twoDigits 0 60 s1 s2).isSome then skipFraction rest
    else none
  | _ => none

/-- An offset from universal time: a letter for none, or a sign, hours and minutes. -/
def isOffset (token : List Char) : Bool :=
  match token with
  | [c] => c == 'Z' || c == 'z'
  | [sign, h1, h2, ':', m1, m2] =>
    (sign == '+' || sign == '-') && (twoDigits 0 23 h1 h2).isSome && (twoDigits 0 59 m1 m2).isSome
  | _ => false

/-- A time alone. -/
def isTime (token : List Char) : Bool := skipTime token == some []

/-- A time behind a date, with or without offset. -/
def isTimeOfDate (token : List Char) : Bool :=
  (skipTime token).any fun rest => rest.isEmpty || isOffset rest

/-- A date and a time with the letter between them. -/
def isDateTime (token : List Char) : Bool :=
  match token.drop 10 with
  | mark :: time => isDate (token.take 10) && (mark == 'T' || mark == 't') && isTimeOfDate time
  | [] => false

end DomainModel.Toml.Moment
