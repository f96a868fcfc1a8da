import DomainModel.Digits

/-! # JSON values

The tree of a JSON text. A number is kept as it is written, because a handle has one written form
only. Members of an object keep their order, and a key may occur more than once.

A text may be well formed and yet hold a value that nothing denotes: a number beyond the range of
double precision, or a string in which half of a surrogate pair stands alone. Such a value is
`unreadable`. It does no harm in a member that is skipped; wherever a value is asked for, it is
refused. -/

namespace DomainModel

inductive Json where
  | null
  | bool (value : Bool)
  | number (lexeme : String)
  | string (value : String)
  | array (items : List Json)
  | object (members : List (String × Json))
  | unreadable

namespace Json

mutual

/-- The value can be read when it may nest at most `room` arrays and objects: no part of it is
`unreadable` and no part is nested deeper. -/
def fits (room : Nat) : Json → Bool
  | null | bool _ | number _ | string _ => true
  | array items => 0 < room && allFit (room - 1) items
  | object members => 0 < room && allMembersFit (room - 1) members
  | unreadable => false

def allFit (room : Nat) : List Json → Bool
  | [] => true
  | v :: vs => v.fits room && allFit room vs

def allMembersFit (room : Nat) : List (String × Json) → Bool
  | [] => true
  | (_, v) :: ms => v.fits room && allMembersFit room ms

end

/-- The number of a lexeme without sign, fraction and exponent. -/
def natOfLexeme? (lexeme : String) : Option Nat :=
  let digits := lexeme.toList
  if !digits.isEmpty && digits.all Char.isDigit then some (Digits.value 10 digits) else none

/-- A natural number as JSON. -/
def ofNat (n : Nat) : Json := number (toString n)

end Json

end DomainModel
