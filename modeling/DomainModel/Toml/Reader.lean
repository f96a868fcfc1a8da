import DomainModel.Toml.Moment
import DomainModel.Toml.Number
import DomainModel.Toml.Text

/-! # Reading TOML

A document is a sequence of statements, each on its own line: a header opens a table, a double
header adds an element to an array of tables, and a pair adds a value to the table that was opened
last. `Toml.parse` reads the statements, groups the pairs under their headers and builds the table
of the document from the groups. -/

namespace DomainModel.Toml

open Text (skipBlanks skipSpace restOfLine)

/-! ## Limits -/

/-- The number of arrays and inline tables that may be nested in a value. -/
def nestingLimit : Nat := 79

/-- The number of parts that a dotted key may have. -/
def keyLimit : Nat := 79

/-! ## Keys -/

/-- The character may stand in a key without quotes. -/
def isBareKeyChar (c : Char) : Bool := c.isAlphanum || c == '_' || c == '-'

/-- One part of a key: a string on one line, or a bare word. -/
def readKeyPart (cs : List Char) : Option (List Char × List Char) :=
  match cs with
  | '"' :: rest => Text.scanBasic rest
  | '\'' :: rest => Text.scanLiteral rest
  | cs =>
    let word := cs.takeWhile isBareKeyChar
    if word.isEmpty then none else some (word, cs.dropWhile isBareKeyChar)

/-- A key of at most so many parts, with points between them and blanks around each. -/
def readKey : Nat → List Char → Option (List String × List Char)
  | 0, _ => none
  | parts + 1, cs => do
    let (part, rest) ← readKeyPart (skipBlanks cs)
    match skipBlanks rest with
    | '.' :: rest =>
      let (key, rest) ← readKey parts rest
      return (String.ofList part :: key, rest)
    | rest => return ([String.ofList part], rest)

/-! ## Values -/

/-- The character may stand in a number, a word or a moment. -/
def isTokenChar (c : Char) : Bool :=
  c.isAlphanum || c == '+' || c == '-' || c == '_' || c == '.' || c == ':'

/-- The value of a token. -/
def ofToken? (token : List Char) : Option Toml :=
  if token == ['t', 'r', 'u', 'e'] then some (bool true)
  else if token == ['f', 'a', 'l', 's', 'e'] then some (bool false)
  else if Moment.isDate token || Moment.isTime token || Moment.isDateTime token then
    some (moment (String.ofList token))
  else if Number.isFloat token then some (float (String.ofList token))
  else integer <$> Number.integer? token

/-- A value without parts. A date and a time may have a blank between them instead of the letter. -/
def readScalar (cs : List Char) : Option (Toml × List Char) :=
  match cs with
  | '"' :: _ | '\'' :: _ => do
    let (s, rest) ← Text.scan cs
    return (string (String.ofList s), rest)
  | cs => do
    let token := cs.takeWhile isTokenChar
    let v ← ofToken? token
    match cs.dropWhile isTokenChar with
    | ' ' :: rest =>
      let time := rest.takeWhile isTokenChar
      if Moment.isDate token && Moment.isTimeOfDate time then
        return (moment (String.ofList (token ++ ' ' :: time)), rest.dropWhile isTokenChar)
      else return (v, ' ' :: rest)
    | rest => return (v, rest)

/-- A pair of a key and a value, up to the value's end. -/
def readPair (readValue : List Char → Option (Toml × List Char)) (cs : List Char) :
    Option ((List String × Toml) × List Char) := do
  let (key, rest) ← readKey keyLimit cs
  match rest with
  | '=' :: rest =>
    let (v, rest) ← readValue (skipBlanks rest)
    return ((key, v), rest)
  | _ => none

/-- The items of an array up to its closing bracket. A comma may follow the last one. The fuel
bounds the number of items. -/
def readItems (readValue : List Char → Option (Toml × List Char)) :
    Nat → List Char → Option (List Toml × List Char)
  | 0, _ => none
  | fuel + 1, cs =>
    match skipSpace false cs with
    | ']' :: rest => some ([], rest)
    | cs => do
      let (v, rest) ← readValue cs
      match skipSpace false rest with
      | ',' :: rest =>
        let (vs, rest) ← readItems readValue fuel rest
        return (v :: vs, rest)
      | ']' :: rest => return ([v], rest)
      | _ => none

/-- The pairs of an inline table up to its closing brace, at least one. The fuel bounds the number
of pairs. -/
def readPairs (readValue : List Char → Option (Toml × List Char)) :
    Nat → List Char → Option (List (List String × Toml) × List Char)
  | 0, _ => none
  | fuel + 1, cs => do
    let (pair, rest) ← readPair readValue cs
    match skipBlanks rest with
    | ',' :: rest =>
      let (pairs, rest) ← readPairs readValue fuel rest
      return (pair :: pairs, rest)
    | '\x7d' :: rest => return ([pair], rest)
    | _ => none

/-- The value at the front of a text, in which so many arrays and inline tables may be nested. -/
def readValue : Nat → List Char → Option (Toml × List Char)
  | room + 1, '[' :: rest => do
    let (items, rest) ← readItems (readValue room) (rest.length + 1) rest
    return (array items, rest)
  | room + 1, '\x7b' :: rest =>
    match skipBlanks rest with
    | '\x7d' :: rest => some (table .inline [], rest)
    | rest => do
      let (pairs, rest) ← readPairs (readValue room) (rest.length + 1) rest
      return (table .inline (← Entries.putAll pairs []), rest)
  | _, cs => readScalar cs

/-! ## Statements -/

inductive Statement where
  | pair (key : List String) (value : Toml)
  | header (path : List String)
  | element (path : List String)

/-- The path of a header up to its closing bracket. -/
def readHeader (cs : List Char) : Option (List String × List Char) := do
  let (path, rest) ← readKey keyLimit cs
  match rest with
  | ']' :: rest => return (path, rest)
  | _ => none

/-- The statement at the front of a text. -/
def readStatement (cs : List Char) : Option (Statement × List Char) :=
  match cs with
  | '[' :: '[' :: rest => do
    let (path, rest) ← readHeader rest
    match rest with
    | ']' :: rest => return (.element path, rest)
    | _ => none
  | '[' :: rest => do
    let (path, rest) ← readHeader rest
    return (.header path, rest)
  | cs => do
    let ((key, v), rest) ← readPair (readValue nestingLimit) cs
    return (.pair key v, rest)

/-- The statements of a text, each up to the end of its line. The fuel bounds their number. -/
def readStatements : Nat → List Char → Option (List Statement)
  | 0, _ => none
  | fuel + 1, cs =>
    match skipSpace false cs with
    | [] => some []
    | cs => do
      let (statement, rest) ← readStatement cs
      let statements ← readStatements fuel (← restOfLine rest)
      return statement :: statements

/-! ## Documents -/

/-- The pairs at the front, and the statements from the first header on. -/
def leadingPairs : List Statement → List (List String × Toml) × List Statement
  | .pair key v :: rest =>
    let (pairs, rest) := leadingPairs rest
    ((key, v) :: pairs, rest)
  | statements => ([], statements)

/-- Add the groups of pairs to a document, each under the header in front of it. -/
def build : List Statement → Entries → Option Entries
  | [], document => some document
  | .pair _ _ :: rest, document => build rest document
  | .header path :: rest, document => do
    build rest (← document.openTable path (leadingPairs rest).1)
  | .element path :: rest, document => do
    build rest (← document.addElement path (leadingPairs rest).1)

/-- The document of statements. The pairs in front of the first header are its own. -/
def ofStatements (statements : List Statement) : Option Entries := do
  build statements (← Entries.putAll (leadingPairs statements).1 [])

/-- The text without a byte order mark at its front. -/
def skipMark : List Char → List Char
  | '\ufeff' :: rest => rest
  | cs => cs

/-- **The document that a text holds.** -/
def parse (text : String) : Option Entries := do
  let cs := skipMark text.toList
  ofStatements (← readStatements (cs.length + 1) cs)

end DomainModel.Toml
