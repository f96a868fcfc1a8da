import DomainModel.Diagnostic.Node

/-! # Diagnostics

A diagnostic is an error or a warning with a message, the place in the model it is about and a
suggestion, the last two optional. A `Bag` collects diagnostics in the order in which they are
reported. -/

namespace DomainModel

inductive Severity where
  | error
  | warning
deriving DecidableEq

instance : Vocabulary Severity where
  values := [.error, .warning]
  word
    | .error => "error"
    | .warning => "warning"
  find_word := by intro a; cases a <;> rfl

/-- A feature of a node, with a position if the feature is a list. -/
structure Location where
  node : NodeRef
  feature : Feature
  index : Option Nat
deriving DecidableEq

structure Diagnostic where
  severity : Severity
  message : String
  location : Option Location
  suggestion : Option String
deriving DecidableEq

namespace Diagnostic

/-- An error without place. -/
def error (message : String) : Diagnostic := ⟨.error, message, none, none⟩

/-- A warning without place. -/
def warning (message : String) : Diagnostic := ⟨.warning, message, none, none⟩

/-- Point at a feature of a node, and at no position in it. -/
def about (d : Diagnostic) (node : NodeRef) (feature : Feature) : Diagnostic :=
  { d with location := some ⟨node, feature, none⟩ }

/-- Point at a position in the feature. A diagnostic without place stays as it is. -/
def withIndex (d : Diagnostic) (index : Nat) : Diagnostic :=
  { d with location := d.location.map ({ · with index := some index }) }

def withSuggestion (d : Diagnostic) (suggestion : String) : Diagnostic :=
  { d with suggestion := some suggestion }

def isError (d : Diagnostic) : Bool := d.severity == .error

def node? (d : Diagnostic) : Option NodeRef := d.location.map (·.node)

def feature? (d : Diagnostic) : Option Feature := d.location.map (·.feature)

/-- The severity and the message on one line. -/
def text (d : Diagnostic) : String := s!"{Vocabulary.word d.severity}: {d.message}"

end Diagnostic

/-- Diagnostics in the order in which they were reported. -/
structure Bag where
  diagnostics : List Diagnostic
deriving DecidableEq

namespace Bag

def empty : Bag := ⟨[]⟩

def report (b : Bag) (d : Diagnostic) : Bag := ⟨b.diagnostics ++ [d]⟩

/-- All of the first bag, then all of the second. -/
def append (a b : Bag) : Bag := ⟨a.diagnostics ++ b.diagnostics⟩

instance : Append Bag := ⟨append⟩

def hasErrors (b : Bag) : Bool := b.diagnostics.any Diagnostic.isError

def size (b : Bag) : Nat := b.diagnostics.length

def isEmpty (b : Bag) : Bool := b.diagnostics.isEmpty

end Bag

end DomainModel
