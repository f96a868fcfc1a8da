import DomainModel.Digits

/-! # TOML strings, blanks and comments

A string is *basic*, with escapes, or *literal*, without, and either fits on one line or is written
between tripled quotes. The scanners get the text behind the opening quotes; they give the
characters of the string and the text behind the closing quotes.

A line ends with a line feed, with or without a carriage return in front. A carriage return stands
nowhere else. -/

namespace DomainModel.Toml.Text

def isBlank (c : Char) : Bool := c == ' ' || c == '\t'

/-- The character may stand in a comment and in a literal string: no control character but the tab.
-/
def isPlain (c : Char) : Bool := c == '\t' || (' ' ≤ c && c != '\x7f')

/-- The text without the blanks at its front. -/
def skipBlanks (cs : List Char) : List Char := cs.dropWhile isBlank

/-- The text behind the line end at its front. -/
def lineEnd? : List Char → Option (List Char)
  | '\n' :: rest => some rest
  | '\r' :: '\n' :: rest => some rest
  | _ => none

/-- The text without the blanks, line ends and comments at its front. A comment that does not reach
the end of its line stops the skipping at a character that nothing starts with. -/
def skipSpace (inComment : Bool) : List Char → List Char
  | '\n' :: rest => skipSpace false rest
  | '\r' :: '\n' :: rest => skipSpace false rest
  | c :: rest =>
    if inComment then if isPlain c then skipSpace true rest else c :: rest
    else if isBlank c then skipSpace false rest
    else if c == '#' then skipSpace true rest
    else c :: rest
  | [] => []

/-- The text behind a line that has no more content: blanks, perhaps a comment, then its end. -/
def restOfLine (cs : List Char) : Option (List Char) :=
  let cs := skipBlanks cs
  let cs := if cs.head? == some '#' then cs.dropWhile isPlain else cs
  if cs.isEmpty then some [] else lineEnd? cs

/-! ### Escapes -/

/-- The character that hexadecimal digits denote; surrogates are no characters. -/
def hexChar (digits : List Char) : Option Char :=
  let n := Digits.value 16 digits
  if digits.all (Digits.isDigitOf 16) && decide n.isValidChar then some (Char.ofNat n) else none

/-- The character of a one-letter escape. -/
def simpleEscape (c : Char) : Option Char :=
  match c with
  | '"' => some '"'
  | '\\' => some '\\'
  | 'b' => some '\x08'
  | 'f' => some '\x0c'
  | 'n' => some '\n'
  | 'r' => some '\r'
  | 't' => some '\t'
  | _ => none

/-! ### Strings -/

/-- A character in front of a scanned string. -/
def before (c : Option Char) (scanned : Option (List Char × List Char)) :
    Option (List Char × List Char) := do
  let (s, rest) ← scanned
  return ((← c) :: s, rest)

/-- A basic string on one line. -/
def scanBasic : List Char → Option (List Char × List Char)
  | [] => none
  | '"' :: rest => some ([], rest)
  | '\\' :: 'u' :: a :: b :: c :: d :: rest => before (hexChar [a, b, c, d]) (scanBasic rest)
  | '\\' :: 'U' :: a :: b :: c :: d :: e :: f :: g :: h :: rest =>
    before (hexChar [a, b, c, d, e, f, g, h]) (scanBasic rest)
  | '\\' :: e :: rest => before (simpleEscape e) (scanBasic rest)
  | c :: rest => if isPlain c && c != '\\' then before c (scanBasic rest) else none

/-- A literal string on one line. -/
def scanLiteral : List Char → Option (List Char × List Char)
  | [] => none
  | '\'' :: rest => some ([], rest)
  | c :: rest => if isPlain c then before c (scanLiteral rest) else none

/-- A basic string over several lines. Up to two quotes may stand in front of the closing ones. A
backslash at the end of a line drops the line end and all blanks and line ends behind it; while they
are dropped, `dropping` is set. -/
def scanBasicLines (dropping : Bool) : List Char → Option (List Char × List Char)
  | [] => none
  | '"' :: '"' :: '"' :: '"' :: '"' :: rest => some (['"', '"'], rest)
  | '"' :: '"' :: '"' :: '"' :: rest => some (['"'], rest)
  | '"' :: '"' :: '"' :: rest => some ([], rest)
  | '\n' :: rest =>
    if dropping then scanBasicLines true rest else before '\n' (scanBasicLines false rest)
  | '\r' :: '\n' :: rest =>
    if dropping then scanBasicLines true rest else before '\n' (scanBasicLines false rest)
  | '\\' :: 'u' :: a :: b :: c :: d :: rest =>
    before (hexChar [a, b, c, d]) (scanBasicLines false rest)
  | '\\' :: 'U' :: a :: b :: c :: d :: e :: f :: g :: h :: rest =>
    before (hexChar [a, b, c, d, e, f, g, h]) (scanBasicLines false rest)
  | '\\' :: e :: rest =>
    if (lineEnd? (skipBlanks (e :: rest))).isSome then scanBasicLines true (e :: rest)
    else before (simpleEscape e) (scanBasicLines false rest)
  | c :: rest =>
    if dropping && isBlank c then scanBasicLines true rest
    else if isPlain c && c != '\\' then before c (scanBasicLines false rest)
    else none

/-- A literal string over several lines. Up to two quotes may stand in front of the closing ones. -/
def scanLiteralLines : List Char → Option (List Char × List Char)
  | [] => none
  | '\'' :: '\'' :: '\'' :: '\'' :: '\'' :: rest => some (['\'', '\''], rest)
  | '\'' :: '\'' :: '\'' :: '\'' :: rest => some (['\''], rest)
  | '\'' :: '\'' :: '\'' :: rest => some ([], rest)
  | '\n' :: rest => before '\n' (scanLiteralLines rest)
  | '\r' :: '\n' :: rest => before '\n' (scanLiteralLines rest)
  | c :: rest => if isPlain c then before c (scanLiteralLines rest) else none

/-- The text behind the line end that may follow the opening quotes of a string over several
lines. -/
def skipFirstLineEnd (cs : List Char) : List Char := (lineEnd? cs).getD cs

/-- The string at the front of a text that starts with a quote of either kind. -/
def scan : List Char → Option (List Char × List Char)
  | '"' :: '"' :: '"' :: rest => scanBasicLines false (skipFirstLineEnd rest)
  | '"' :: rest => scanBasic rest
  | '\'' :: '\'' :: '\'' :: rest => scanLiteralLines (skipFirstLineEnd rest)
  | '\'' :: rest => scanLiteral rest
  | _ => none

end DomainModel.Toml.Text
