import DomainModel.Model.Basic
import DomainModel.Expr.Numbering

/-! # Numbering the expressions of a model

All expressions of a model share one sequence of numbers from 0: first the invariants of the
aggregates, then those of the anti-corruption declarations, then, object by object, the assignments
of the constructor and the assignment commands of the operations. -/

namespace DomainModel

namespace Invariant

def count (i : Invariant) : Nat := i.expression.count

def numbered (next : Nat) (i : Invariant) : Invariant :=
  { i with expression := i.expression.numbered next }

end Invariant

namespace Aggregate

def count (a : Aggregate) : Nat := countList Invariant.count a.invariants

def numbered (next : Nat) (a : Aggregate) : Aggregate :=
  { a with invariants := numberedList Invariant.count Invariant.numbered next a.invariants }

end Aggregate

namespace AntiCorruption

def count (a : AntiCorruption) : Nat := countList Invariant.count a.invariants

def numbered (next : Nat) (a : AntiCorruption) : AntiCorruption :=
  { a with invariants := numberedList Invariant.count Invariant.numbered next a.invariants }

end AntiCorruption

namespace ConstructorAssignment

def count (a : ConstructorAssignment) : Nat := a.expression.count

def numbered (next : Nat) (a : ConstructorAssignment) : ConstructorAssignment :=
  { a with expression := a.expression.numbered next }

end ConstructorAssignment

namespace Constructor

def count (c : Constructor) : Nat := countList ConstructorAssignment.count c.assignments

def numbered (next : Nat) (c : Constructor) : Constructor :=
  { c with
    assignments :=
      numberedList ConstructorAssignment.count ConstructorAssignment.numbered next c.assignments }

end Constructor

namespace Command

def count : Command → Nat
  | assignment _ right => right.count
  | other _ => 0

def numbered (next : Nat) : Command → Command
  | assignment left right => assignment left (right.numbered next)
  | other text => other text

end Command

namespace Operation

def count (o : Operation) : Nat := countList Command.count o.commands

def numbered (next : Nat) (o : Operation) : Operation :=
  { o with commands := numberedList Command.count Command.numbered next o.commands }

end Operation

namespace DomainObject

/-- The number of expression nodes in the constructor. -/
def constructorCount (o : DomainObject) : Nat := (o.constructor.map Constructor.count).getD 0

def count (o : DomainObject) : Nat := o.constructorCount + countList Operation.count o.operations

def numbered (next : Nat) (o : DomainObject) : DomainObject :=
  { o with
    constructor := o.constructor.map (Constructor.numbered next)
    operations :=
      numberedList Operation.count Operation.numbered (next + o.constructorCount) o.operations }

end DomainObject

namespace Model

/-- The number of expression nodes in the model. -/
def count (m : Model) : Nat :=
  countList Aggregate.count m.aggregates + countList AntiCorruption.count m.antiCorruptions +
    countList DomainObject.count m.objects

/-- **The model with its expressions numbered from 0.** -/
def numbered (m : Model) : Model :=
  let invariants := countList Aggregate.count m.aggregates
  let translated := countList AntiCorruption.count m.antiCorruptions
  { m with
    aggregates := numberedList Aggregate.count Aggregate.numbered 0 m.aggregates
    antiCorruptions :=
      numberedList AntiCorruption.count AntiCorruption.numbered invariants m.antiCorruptions
    objects :=
      numberedList DomainObject.count DomainObject.numbered (invariants + translated) m.objects }

end Model

end DomainModel
