import DomainModel.Check
import DomainModel.Model.Navigation

/-! # Anti-corruption declarations

The mapped context is upstream of the owning one on the first map that lists it, and the mapped
aggregate belongs to it. Every translated attribute has a name of its own and stands for an
attribute of an entity of the mapped aggregate, with that attribute's type; one of them stands for
the key of the aggregate's root. In a translation the names of invariants are distinct. -/

namespace DomainModel.Model

variable (m : Model)

/-! ## The mapped side -/

/-- The first map that lists the context puts it upstream of `owner`. -/
def isUpstreamContext (mapped owner : ContextId) : Lookup Bool := do
  match ← m.contextMapOf mapped with
  | none => return false
  | some h => m.isUpstreamOf h mapped owner

/-- Check the mapped context and that the mapped aggregate belongs to it. -/
def checkMappedContext (id : AntiCorruptionId) (ac : AntiCorruption) : Check Unit := do
  match ac.boundedContext with
  | none =>
    Check.report (.mappedContextUndefined ac.name) (.antiCorruption id) .boundedContext
  | some mapped =>
    if !(← m.isUpstreamContext mapped ac.owner) then
      Check.report (.contextNotUpstream (← m.context mapped).name) (.antiCorruption id)
        .boundedContext
    if let some a := ac.aggregate then
      if !(← m.contextAggregates mapped).contains a then
        Check.report (.mappedAggregateForeign (← m.aggregate a).name) (.antiCorruption id)
          .aggregate

/-! ## Attributes -/

/-- Check that an entity is one of the entities of the mapped aggregate. -/
def checkTranslatedEntity (node : NodeRef) (a : AggregateId) (entity : ObjectId) : Check Unit := do
  if !(← m.listsEntity a entity) then
    Check.report (.mappedEntityForeign (← m.object entity).name) node .entity

/-- Check one translated attribute, its name apart, and find the entity and the attribute that it
stands for. The attribute is looked up on the entity by the name of the linked one. -/
def checkTranslation (kind : AntiCorruptionKind) (node : NodeRef) (a : AggregateId)
    (t : AttributeTranslation) : Check (Option (ObjectId × AttributeId)) := do
  match t.entity, t.entityAttribute with
  | some entity, some linked =>
    m.checkTranslatedEntity node a entity
    let linkedName := (← m.attributeOf linked).name
    match ← m.attributeByName entity linkedName with
    | none =>
      Check.report (.mappedAttributeForeign linkedName) node .attribute
      return none
    | some resolved =>
      let declared ← m.attributeOf resolved
      if declared.type != t.type then Check.report (.declaredType kind declared.type) node .type
      return some (entity, resolved)
  | _, _ =>
    Check.report (.translationUnresolved t.name) node .attribute
    return none

/-- Check the translated attributes from position `index` on, given the names before them, and
collect what they stand for. -/
def checkTranslations (id : AntiCorruptionId) (kind : AntiCorruptionKind) (a : AggregateId)
    (index : Nat) (names : List String) :
    List AttributeTranslation → Check (List (ObjectId × AttributeId))
  | [] => return []
  | t :: rest => do
    let node := NodeRef.attributeTranslation id index
    if names.contains t.name then Check.report (.attributeRepeated kind t.name) node .name
    let resolved ← m.checkTranslation kind node a t
    let others ← checkTranslations id kind a (index + 1) (t.name :: names) rest
    return resolved.toList ++ others

/-! ## Invariants -/

/-- Report the invariants whose name has been used before. -/
def checkInvariantNames (id : AntiCorruptionId) (index : Nat) (names : List String) :
    List Invariant → Check Unit
  | [] => return
  | i :: rest => do
    if names.contains i.name then
      Check.report (.invariantRepeated i.name) (.interInvariant id index) .name
    checkInvariantNames id (index + 1) (i.name :: names) rest

/-! ## Declarations -/

/-- **Check an anti-corruption declaration.** Without a mapped aggregate its attributes and
invariants are not checked. -/
def checkAntiCorruption (id : AntiCorruptionId) : Check Unit := do
  let ac ← m.antiCorruption id
  m.checkMappedContext id ac
  match ac.aggregate with
  | none => Check.report (.mappedAggregateUndefined ac.name) (.antiCorruption id) .aggregate
  | some a =>
    let key ← m.rootKey a
    let resolved ← m.checkTranslations id ac.kind a 0 [] ac.attributes
    if !resolved.any (some · == key) then
      Check.report (.rootKeyNotTranslated (← m.aggregate a).name) (.antiCorruption id) .aggregate
    if ac.kind = .translation then checkInvariantNames id 0 [] ac.invariants

end DomainModel.Model
