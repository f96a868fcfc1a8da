import DomainModel.Typing.Infer

/-! # Invariants

An invariant of an aggregate is boolean or a `final(…)` expression, without variables. An invariant
of an anti-corruption translation is boolean; its variables are the translation's attributes.
Anti-corruption mappings have no invariants to check. -/

namespace DomainModel.Model

variable (m : Model)

/-- The scope that the attributes of an anti-corruption declaration make. -/
def translationScope (ac : AntiCorruption) : Lookup Scope := do
  let names ← match ac.aggregate with
    | some a => m.entityNames a
    | none => pure []
  return .root (ac.attributes.map fun t =>
    (t.name, if names.contains t.type then .entity t.type else .primitive t.type))

/-- Check the invariant at a position of an aggregate; a position without invariant is in order. -/
def checkIntraInvariant (policy : TernaryPolicy) (a : AggregateId) (index : Nat) : Check Unit := do
  match (← m.aggregate a).invariants[index]? with
  | none => return
  | some invariant =>
    let env ← Env.forAggregate m (some a) policy
    let type ← env.infer .empty .intraInvariant invariant.expression
    if !env.compatible type .boolean && !env.compatible type .final then
      Check.report (.intraInvariantType type) (.intraInvariant a index) .expression

/-- Check the invariant at a position of an anti-corruption translation; a position without
invariant is in order. -/
def checkInterInvariant (policy : TernaryPolicy) (owner : AntiCorruptionId) (index : Nat) :
    Check Unit := do
  let ac ← m.antiCorruption owner
  match ac.invariants[index]? with
  | none => return
  | some invariant =>
    let scope ← m.translationScope ac
    let env ← Env.forAggregate m ac.aggregate policy
    let type ← env.infer scope .interInvariant invariant.expression
    if !env.compatible type .boolean then
      Check.report (.interInvariantType type) (.interInvariant owner index) .expression

/-- Check all invariants of an aggregate. -/
def checkInvariants (policy : TernaryPolicy) (a : AggregateId) : Check Unit := do
  Check.each (m.checkIntraInvariant policy a) (List.range (← m.aggregate a).invariants.length)

/-- Check all invariants of an anti-corruption translation. -/
def checkTranslationInvariants (policy : TernaryPolicy) (owner : AntiCorruptionId) :
    Check Unit := do
  let ac ← m.antiCorruption owner
  match ac.kind with
  | .mapping => return
  | .translation =>
    Check.each (m.checkInterInvariant policy owner) (List.range ac.invariants.length)

end DomainModel.Model
