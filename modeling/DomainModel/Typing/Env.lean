import DomainModel.Check
import DomainModel.Model.Navigation
import DomainModel.Settings.Basic

/-! # Typing environments

An expression is checked against a model, for the aggregate whose entities it may navigate (for a
translation that is the mapped aggregate, and there may be none), and under a rule for ternaries. -/

namespace DomainModel

structure Env where
  model : Model
  aggregate : Option AggregateId
  /-- The names of the aggregate's entities, for which `null` may stand. -/
  entityNames : List String
  policy : TernaryPolicy

namespace Env

/-- The environment of an aggregate. -/
def forAggregate (model : Model) (aggregate : Option AggregateId) (policy : TernaryPolicy) :
    Lookup Env := do
  let names ← match aggregate with
    | some a => model.entityNames a
    | none => pure []
  return ⟨model, aggregate, names, policy⟩

def compatible (env : Env) (a b : Ty) : Bool := Ty.compatible env.entityNames a b

end Env

/-- The type of a declared parameter or return type; an unresolved object has the type `error`. -/
def ComplexType.type (model : Model) (t : ComplexType) : Lookup Ty := do
  let wrap (base : Ty) := if t.collection.isCollection then Ty.collection base else base
  match t.target with
  | .primitive name => return wrap (.primitive name)
  | .domainObject (some o) => return wrap (.entity (← model.object o).name)
  | .domainObject none => return .error

end DomainModel
