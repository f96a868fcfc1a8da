import DomainModel.Digits

/-! # JSON strings

Inside a string, a quote, a backslash and control characters are escaped, and any UTF-16 unit may
be. `Text.scan` takes the pieces up to the closing quote, characters and units; `Text.ofPieces`
joins surrogates, which only make a character as a pair. `Text.escape` writes the shortest escapes
and no other. -/

namespace DomainModel.Json.Text

/-- A character as written, or the UTF-16 unit of a numeric escape. -/
inductive Piece where
  | char (c : Char)
  | unit (u : Nat)
deriving DecidableEq

/-- The unit that four hexadecimal digits denote. -/
def hexUnit (a b c d : Char) : Option Nat :=
  if [a, b, c, d].all (Digits.isDigitOf 16) then some (Digits.value 16 [a, b, c, d]) else none

/-- The character of a one-letter escape. -/
def simpleEscape (c : Char) : Option Char :=
  match c with
  | '"' => some '"'
  | '\\' => some '\\'
  | '/' => some '/'
  | 'b' => some '\x08'
  | 'f' => some '\x0c'
  | 'n' => some '\n'
  | 'r' => some '\r'
  | 't' => some '\t'
  | _ => none

/-- The pieces up to the closing quote, and the text behind it. Control characters and unknown
escapes are refused. -/
def scan : List Char → Option (List Piece × List Char)
  | [] => none
  | '"' :: rest => some ([], rest)
  | '\\' :: 'u' :: a :: b :: c :: d :: rest => do
    let u ← hexUnit a b c d
    let (pieces, tail) ← scan rest
    return (.unit u :: pieces, tail)
  | '\\' :: e :: rest => do
    let c ← simpleEscape e
    let (pieces, tail) ← scan rest
    return (.char c :: pieces, tail)
  | c :: rest =>
    if c < ' ' || c == '\\' then none
    else do
      let (pieces, tail) ← scan rest
      return (.char c :: pieces, tail)

/-- The unit is the first half of a pair. -/
def isHigh (u : Nat) : Bool := 0xD800 ≤ u && u < 0xDC00

/-- The unit is the second half of a pair. -/
def isLow (u : Nat) : Bool := 0xDC00 ≤ u && u < 0xE000

/-- The character of a pair of surrogates. -/
def pair (high low : Nat) : Char := Char.ofNat (0x10000 + (high - 0xD800) * 0x400 + (low - 0xDC00))

/-- The characters of pieces, or nothing if half of a surrogate pair stands alone. -/
def ofPieces : List Piece → Option (List Char)
  | [] => some []
  | .char c :: rest => (c :: ·) <$> ofPieces rest
  | .unit u :: rest =>
    if isHigh u then
      match rest with
      | .unit v :: rest => if isLow v then (pair u v :: ·) <$> ofPieces rest else none
      | _ => none
    else if isLow u then none
    else (Char.ofNat u :: ·) <$> ofPieces rest

/-- The hexadecimal digit of a value below 16. -/
def hexDigit (n : Nat) : Char := Nat.digitChar n

/-- The written form of one character. -/
def escapeChar (c : Char) : List Char :=
  match c with
  | '"' => ['\\', '"']
  | '\\' => ['\\', '\\']
  | '\x08' => ['\\', 'b']
  | '\x0c' => ['\\', 'f']
  | '\n' => ['\\', 'n']
  | '\r' => ['\\', 'r']
  | '\t' => ['\\', 't']
  | c =>
    if c < ' ' then ['\\', 'u', '0', '0', hexDigit (c.toNat / 16), hexDigit (c.toNat % 16)]
    else [c]

/-- The written form of a string, quotes included. -/
def escape (s : String) : String :=
  String.ofList ('"' :: s.toList.flatMap escapeChar ++ ['"'])

end DomainModel.Json.Text
