import DomainModel.Ty.Basic

/-! # Scopes

The variables that an expression may name. A scope is a list of root bindings, extended by one
binding for every lambda that encloses the expression. A name that is visible cannot be bound again,
so along a chain of scopes no binding hides another.

* `Scope.lookup`: the innermost binding of a name; among root bindings the last one counts.
* `Scope.bind`: a child scope, or the type that the name already has.
-/

namespace DomainModel

/-- Where an expression stands. This decides which heads its paths may have. -/
inductive ScopeKind where
  /-- An invariant of an aggregate. -/
  | intraInvariant
  /-- An invariant of an anti-corruption translation, over the translation's attributes. -/
  | interInvariant
  /-- The right side of an assignment in a constructor, over the parameters. -/
  | constructorAssignment
  /-- The body of a lambda. -/
  | methodLocal
deriving DecidableEq

namespace ScopeKind

def allowsRoot : ScopeKind → Bool
  | intraInvariant | constructorAssignment => true
  | interInvariant | methodLocal => false

def allowsQuery : ScopeKind → Bool
  | intraInvariant | constructorAssignment => false
  | interInvariant | methodLocal => true

end ScopeKind

/-- The variables visible to an expression. -/
inductive Scope where
  | root (bindings : List (String × Ty))
  | child (parent : Scope) (name : String) (type : Ty)
deriving DecidableEq

namespace Scope

/-- The scope without variables. -/
def empty : Scope := root []

/-- The type of a variable, innermost binding first; of equal names in the root the last counts. -/
def lookup : Scope → String → Option Ty
  | root bindings, name => (bindings.reverse.find? (·.1 == name)).map (·.2)
  | child parent bound type, name => if bound == name then some type else parent.lookup name

def isDeclared (s : Scope) (name : String) : Bool := (s.lookup name).isSome

/-- A child scope with one more variable, or the type under which the name is already visible. -/
def bind (s : Scope) (name : String) (type : Ty) : Except Ty Scope :=
  match s.lookup name with
  | some existing => .error existing
  | none => .ok (child s name type)

/-- The number of lambdas around the scope. -/
def depth : Scope → Nat
  | root _ => 0
  | child parent _ _ => parent.depth + 1

/-- The scope around a child scope; the root has none. -/
def parent? : Scope → Option Scope
  | root _ => none
  | child parent _ _ => some parent

end Scope

end DomainModel
