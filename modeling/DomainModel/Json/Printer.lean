import DomainModel.Json.Basic
import DomainModel.Json.Text

/-! # Writing JSON

Two layouts: `compact` puts no blank between tokens, `pretty` puts every item and member on a line
of its own, indented by two blanks for each level, and a blank behind the colon. Arrays and objects
without content are written without blanks in both. -/

namespace DomainModel.Json

mutual

/-- The value on one line without blanks. -/
def compact : Json → String
  | null | unreadable => "null"
  | bool b => if b then "true" else "false"
  | number lexeme => lexeme
  | string s => Text.escape s
  | array items => "[" ++ compactItems items ++ "]"
  | object members => "\x7b" ++ compactMembers members ++ "\x7d"

def compactItems : List Json → String
  | [] => ""
  | [v] => v.compact
  | v :: vs => v.compact ++ "," ++ compactItems vs

def compactMembers : List (String × Json) → String
  | [] => ""
  | [(k, v)] => Text.escape k ++ ":" ++ v.compact
  | (k, v) :: ms => Text.escape k ++ ":" ++ v.compact ++ "," ++ compactMembers ms

end

/-- A new line at a level. -/
def newLine (level : Nat) : String := String.ofList ('\n' :: List.replicate (2 * level) ' ')

mutual

/-- The value over several lines, its closing bracket at the given level. -/
def prettyAt (level : Nat) : Json → String
  | null | unreadable => "null"
  | bool b => if b then "true" else "false"
  | number lexeme => lexeme
  | string s => Text.escape s
  | array [] => "[]"
  | array items => "[" ++ prettyItems (level + 1) items ++ newLine level ++ "]"
  | object [] => "\x7b\x7d"
  | object members => "\x7b" ++ prettyMembers (level + 1) members ++ newLine level ++ "\x7d"

def prettyItems (level : Nat) : List Json → String
  | [] => ""
  | [v] => newLine level ++ v.prettyAt level
  | v :: vs => newLine level ++ v.prettyAt level ++ "," ++ prettyItems level vs

def prettyMembers (level : Nat) : List (String × Json) → String
  | [] => ""
  | [(k, v)] => newLine level ++ Text.escape k ++ ": " ++ v.prettyAt level
  | (k, v) :: ms =>
    newLine level ++ Text.escape k ++ ": " ++ v.prettyAt level ++ "," ++ prettyMembers level ms

end

/-- The value over several lines. -/
def pretty (v : Json) : String := v.prettyAt 0

end DomainModel.Json
