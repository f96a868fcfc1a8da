import DomainModel.Json.Basic
import DomainModel.Json.Number
import DomainModel.Json.Text

/-! # Reading JSON

`Json.parse` reads a text that holds one value and nothing else but blanks around it. A key that
nothing denotes makes its object unreadable. The readers take fuel, of which a text of `n`
characters needs no more than `2 * n + 2`: between two steps without progress lies one that
consumes a character. -/

namespace DomainModel.Json

def isBlank (c : Char) : Bool := c == ' ' || c == '\n' || c == '\t' || c == '\r'

/-- The text without the blanks at its front. -/
def skipBlanks (cs : List Char) : List Char := cs.dropWhile isBlank

theorem skipBlanks_skipBlanks (cs : List Char) : skipBlanks (skipBlanks cs) = skipBlanks cs := by
  unfold skipBlanks
  induction cs with
  | nil => rfl
  | cons c cs ih =>
    rw [List.dropWhile_cons]
    split
    · exact ih
    · next h => rw [List.dropWhile_cons, if_neg h]

theorem skipBlanks_cons {c : Char} (h : isBlank c = false) (cs : List Char) :
    skipBlanks (c :: cs) = c :: cs := by
  unfold skipBlanks
  rw [List.dropWhile_cons, h, if_neg (by simp)]

/-- The string up to the closing quote; `none` inside if it denotes nothing. -/
def readText (cs : List Char) : Option (Option String × List Char) := do
  let (pieces, rest) ← Text.scan cs
  return ((Text.ofPieces pieces).map String.ofList, rest)

/-- The number at the front of a text. -/
def readNumber (cs : List Char) : Option (Json × List Char) := do
  let (lexeme, rest) ← Lexeme.scan cs
  return (if lexeme.inRange then number (String.ofList lexeme.text) else unreadable, rest)

/-- The object of members, unreadable if one of the keys is. -/
def ofMembers (members : List (Option String × Json)) : Json :=
  match members.mapM fun (key, v) => key.map (·, v) with
  | some members => object members
  | none => unreadable

mutual

/-- The value at the front of a text, and the rest. -/
def readValue : Nat → List Char → Option (Json × List Char)
  | 0, _ => none
  | fuel + 1, cs =>
    match skipBlanks cs with
    | 'n' :: 'u' :: 'l' :: 'l' :: rest => some (null, rest)
    | 't' :: 'r' :: 'u' :: 'e' :: rest => some (bool true, rest)
    | 'f' :: 'a' :: 'l' :: 's' :: 'e' :: rest => some (bool false, rest)
    | '"' :: rest => do
      let (s, rest) ← readText rest
      return (s.elim unreadable string, rest)
    | '[' :: rest =>
      match skipBlanks rest with
      | ']' :: rest => some (array [], rest)
      | rest => do
        let (items, rest) ← readItems fuel rest
        return (array items, rest)
    | '\x7b' :: rest =>
      match skipBlanks rest with
      | '\x7d' :: rest => some (object [], rest)
      | rest => do
        let (members, rest) ← readMembers fuel rest
        return (ofMembers members, rest)
    | cs => readNumber cs

/-- The items of an array up to its closing bracket, at least one. -/
def readItems : Nat → List Char → Option (List Json × List Char)
  | 0, _ => none
  | fuel + 1, cs => do
    let (v, rest) ← readValue fuel cs
    match skipBlanks rest with
    | ',' :: rest =>
      let (vs, rest) ← readItems fuel rest
      return (v :: vs, rest)
    | ']' :: rest => return ([v], rest)
    | _ => none

/-- The members of an object up to its closing brace, at least one. -/
def readMembers : Nat → List Char → Option (List (Option String × Json) × List Char)
  | 0, _ => none
  | fuel + 1, cs =>
    match skipBlanks cs with
    | '"' :: rest => do
      let (key, rest) ← readText rest
      match skipBlanks rest with
      | ':' :: rest =>
        let (v, rest) ← readValue fuel rest
        match skipBlanks rest with
        | ',' :: rest =>
          let (ms, rest) ← readMembers fuel rest
          return ((key, v) :: ms, rest)
        | '\x7d' :: rest => return ([(key, v)], rest)
        | _ => none
      | _ => none
    | _ => none

end

/-! ## Blanks at the front -/

theorem readValue_skipBlanks (fuel : Nat) (cs : List Char) :
    readValue fuel (skipBlanks cs) = readValue fuel cs := by
  cases fuel with
  | zero => rfl
  | succ fuel => rw [readValue, readValue, skipBlanks_skipBlanks]

theorem readItems_skipBlanks (fuel : Nat) (cs : List Char) :
    readItems fuel (skipBlanks cs) = readItems fuel cs := by
  cases fuel with
  | zero => rfl
  | succ fuel => rw [readItems, readItems, readValue_skipBlanks]

theorem readMembers_skipBlanks (fuel : Nat) (cs : List Char) :
    readMembers fuel (skipBlanks cs) = readMembers fuel cs := by
  cases fuel with
  | zero => rfl
  | succ fuel => rw [readMembers, readMembers, skipBlanks_skipBlanks]

/-- **The value that a text holds.** -/
def parse (text : String) : Option Json :=
  let cs := text.toList
  match readValue (2 * cs.length + 2) cs with
  | some (v, rest) => if (skipBlanks rest).isEmpty then some v else none
  | none => none

end DomainModel.Json
