import DomainModel.Json.Printer
import DomainModel.Json.Reader
import DomainModel.Model.Format
import DomainModel.Model.Links
import DomainModel.Model.Numbering

/-! # Loading and saving models

A text is loaded in three steps: it has to describe a model, every handle of the model has to point
at a node, and then the expressions are numbered, whatever numbers the text gave them. -/

namespace DomainModel

/-- Why a text is refused. -/
inductive LoadError where
  /-- The text is no JSON, or does not have the shape of a model. -/
  | malformed
  /-- A handle of the model points nowhere. -/
  | dangling (link : Link)
deriving DecidableEq

namespace Model

/-- The number of arrays and objects that may be nested in a text. -/
def nestingLimit : Nat := 127

/-- Accept a model as described: check its links and number its expressions. -/
def accept (m : Model) : Except LoadError Model :=
  match m.dangling? with
  | some link => .error (.dangling link)
  | none => .ok m.numbered

/-- Load a model from a JSON value. -/
def ofJson (v : Json) : Except LoadError Model :=
  match ofJson? nestingLimit v with
  | none => .error .malformed
  | some m => m.accept

/-- **Load a model from a text.** -/
def ofText (text : String) : Except LoadError Model :=
  match Json.parse text with
  | none => .error .malformed
  | some v => ofJson v

/-- **The text of a model.** -/
def text (m : Model) : String := m.toJson.pretty

end Model

end DomainModel
