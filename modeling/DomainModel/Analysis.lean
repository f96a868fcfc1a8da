import DomainModel.Rules.AntiCorruption
import DomainModel.Rules.Callable
import DomainModel.Rules.ContextMap
import DomainModel.Rules.EntityMapping
import DomainModel.Rules.Invariants
import DomainModel.Rules.Names
import DomainModel.Rules.UsesBinding

/-! # The analysis of a model

All checks of a model, subject by subject: the names, then the contexts, the context maps, the
aggregates, the domain objects and the anti-corruption declarations, each arena in order. A check
runs if its group is not skipped. -/

namespace DomainModel

/-- What the analysis visits on its own. -/
inductive Subject where
  | names
  | context (id : ContextId)
  | contextMap (id : ContextMapId)
  | aggregate (id : AggregateId)
  | object (id : ObjectId)
  | antiCorruption (id : AntiCorruptionId)
deriving DecidableEq

namespace Model

variable (m : Model)

/-- The subjects of a model in the order of the visits. -/
def subjects : List Subject :=
  .names :: (m.contextIds.map .context ++ m.contextMapIds.map .contextMap ++
    m.aggregateIds.map .aggregate ++ m.objectIds.map .object ++
    m.antiCorruptionIds.map .antiCorruption)

/-- Check all operations of an object. -/
def checkOperations (policy : TernaryPolicy) (o : ObjectId) : Check Unit := do
  Check.each (m.checkOperation policy o) (List.range (← m.object o).operations.length)

/-- The checks of a subject, each with its group. -/
def checksOf (policy : TernaryPolicy) : Subject → List (CheckGroup × Check Unit)
  | .names => [(.uniqueness, m.checkNames)]
  | .context id => [(.contextMap, m.checkBoundedContext id)]
  | .contextMap id => [(.contextMap, m.checkContextMap id)]
  | .aggregate id => [(.aggregate, m.checkAggregate id), (.invariant, m.checkInvariants policy id)]
  | .object id =>
    [(.entity, m.checkEntity id), (.constructor, m.checkConstructor policy id),
      (.operation, m.checkOperations policy id)]
  | .antiCorruption id =>
    [(.antiCorruption, m.checkAntiCorruption id),
      (.invariant, m.checkTranslationInvariants policy id)]

/-- Check a subject, the skipped groups left out. -/
def checkSubject (settings : Settings) (subject : Subject) : Check Unit :=
  Check.each (fun (group, check) => if settings.enabled group then check else pure ())
    (m.checksOf settings.policy subject)

/-- **Check a whole model.** -/
def check (settings : Settings) : Check Unit :=
  Check.each (m.checkSubject settings) m.subjects

/-- The diagnostics of a whole model. -/
def analyze (settings : Settings) : Lookup Bag :=
  let outcome := m.check settings
  ⟨⟨outcome.findings.map Finding.diagnostic⟩, outcome.misses⟩

end Model

end DomainModel
