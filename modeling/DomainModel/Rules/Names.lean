import DomainModel.Check
import DomainModel.Model.Navigation

/-! # Distinct names

Names of bounded contexts, of modules, of aggregates and of domain objects are distinct in the whole
model, names of invariants within their aggregate. Every node whose name occurs more than once is
reported, in declaration order; a module is reported on the context that lists it. -/

namespace DomainModel

/-- Count one more occurrence of a name. -/
def countName (name : String) : List (String × Nat) → List (String × Nat)
  | [] => [(name, 1)]
  | (known, count) :: rest =>
    if known == name then (known, count + 1) :: rest else (known, count) :: countName name rest

/-- The names that occur, each with the number of its occurrences. -/
def nameCounts (names : List String) : List (String × Nat) :=
  names.foldl (fun counts name => countName name counts) []

/-- Report every node whose name occurs more than once. -/
def reportRepeated (category : NameCategory) (named : List (NodeRef × String)) : Check Unit :=
  let counts := nameCounts (named.map (·.2))
  Check.each
    (fun (node, name) => do
      let count ← Lookup.entry counts name
      if count > 1 then Check.report (.nameRepeated category name) node .name)
    named

namespace Model

variable (m : Model)

/-- The modules of all contexts, each on the context that lists it. -/
def listedModules : Lookup (List (NodeRef × String)) :=
  Lookup.flatMap
    (fun c => do
      Lookup.map (fun h => return (.context c, (← m.module h).name)) (← m.context c).modules)
    m.contextIds

/-- The invariants of an aggregate with their places. -/
def namedInvariants (a : AggregateId) (invariants : List Invariant) : List (NodeRef × String) :=
  invariants.zipIdx.map fun (invariant, i) => (.intraInvariant a i, invariant.name)

/-- **Check that names are distinct** in every category. -/
def checkNames : Check Unit := do
  reportRepeated .context
    (← Lookup.map (fun c => return (.context c, (← m.context c).name)) m.contextIds)
  reportRepeated .module (← m.listedModules)
  reportRepeated .aggregate
    (← Lookup.map (fun a => return (.aggregate a, (← m.aggregate a).name)) m.aggregateIds)
  reportRepeated .object
    (← Lookup.map (fun o => return (.domainObject o, (← m.object o).name)) m.objectIds)
  Check.each
    (fun a => do reportRepeated .invariant (namedInvariants a (← m.aggregate a).invariants))
    m.aggregateIds

end Model

end DomainModel
