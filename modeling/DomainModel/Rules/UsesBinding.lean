import DomainModel.Check
import DomainModel.Model.Navigation

/-! # Uses bindings

An entity may delegate to a value object of an aggregate in another context, directly or through an
anti-corruption declaration of its own context. The other context is related to its own and not
downstream of it, the aggregate has a root with a key, and the value object consists of attributes
and one constructor. Attributes of the entity with a uses clause read through the binding: they use
its variable and have the type of the attribute they name. -/

namespace DomainModel.Model

variable (m : Model)

/-- Where uses clauses resolve. -/
inductive UsesTarget where
  | antiCorruption (id : AntiCorruptionId)
  | valueObject (id : ObjectId)
deriving DecidableEq

/-! ## The used context -/

/-- What a relationship says about the used context and the context that uses it. -/
structure Relation where
  related : Bool
  /-- The used context is downstream. -/
  reversed : Bool
deriving DecidableEq

/-- What one relationship says. -/
def relationOf (used owner : ContextId) : Relationship → Relation
  | .symmetric _ a b =>
    ⟨(a, b) == (some used, some owner) || (a, b) == (some owner, some used), false⟩
  | .upstreamDownstream s =>
    let reversed := (s.upstream, s.downstream) == (some owner, some used)
    ⟨(s.upstream, s.downstream) == (some used, some owner) || reversed, reversed⟩

/-- What the first map that lists the used context says. -/
def relation (used owner : ContextId) : Lookup Relation := do
  match ← m.contextMapOf used with
  | none => return ⟨false, false⟩
  | some h =>
    let relationships ← Lookup.map m.relationship (← m.contextMap h).relationships
    let relations := relationships.map (relationOf used owner)
    return ⟨relations.any (·.related), relations.any (·.reversed)⟩

/-- Check that the used context is related to the owning one and not downstream of it. -/
def checkUsedContext (entity : ObjectId) (used owner : ContextId) : Check Unit := do
  let relation ← m.relation used owner
  if relation.reversed then
    Check.report (.contextNotUpstream (← m.context used).name) (.domainObject entity)
      .usesBoundedContext
  if !relation.related then
    Check.report .contextsUnrelated (.domainObject entity) .usesBoundedContext

/-! ## The used aggregate and value object -/

/-- Check that the used aggregate has a root with a key. -/
def checkUsedRoot (entity : ObjectId) (a : AggregateId) : Check Unit := do
  match ← m.rootEntity a with
  | none => Check.report .noRootEntity (.domainObject entity) .usesAggregate
  | some root =>
    if (← m.keyAttribute root).isNone then
      Check.report (.rootWithoutKey (← m.object root).name) (.domainObject entity) .usesAggregate

/-- Check that the used aggregate belongs to the used context and has a root with a key. -/
def checkUsedAggregate (entity : ObjectId) (context : Option ContextId) (a : AggregateId) :
    Check Unit := do
  if let some c := context then
    if !(← m.contextAggregates c).contains a then
      Check.report (.aggregateOutsideContext (← m.context c).name) (.domainObject entity)
        .usesAggregate
  m.checkUsedRoot entity a

/-- The number of operations that are named after their object. -/
def constructorOperations (o : DomainObject) : Nat := o.operations.countP (·.name == o.name)

/-- The object has references, a repository, operations other than a constructor, or several
constructor operations. -/
def isTooRich (o : DomainObject) : Lookup Bool := do
  let constructors := constructorOperations o
  let others ← Lookup.difference o.operations.length constructors
  return !o.references.isEmpty || o.repository.isSome || 0 < others || 1 < constructors

/-- Check that the used value object consists of attributes and one constructor. -/
def checkPlain (entity : ObjectId) (valueObject : DomainObject) : Check Unit := do
  if ← isTooRich valueObject then
    Check.report (.valueObjectTooRich valueObject.name) (.domainObject entity) .usesValueObject
  if valueObject.constructor.isNone && constructorOperations valueObject == 0 then
    Check.report (.valueObjectWithoutConstructor valueObject.name) (.domainObject entity)
      .usesValueObject

/-- The object is a value object that the aggregate lists. -/
def listsValueObject (a : AggregateId) (o : ObjectId) : Lookup Bool := do
  if (← m.object o).isValueObject then return (← m.aggregate a).objects.contains o
  else return false

/-- Check that the used value object belongs to the used aggregate and is a plain one. -/
def checkUsedValueObject (entity : ObjectId) (aggregate : Option AggregateId) (o : ObjectId) :
    Check Unit := do
  if let some a := aggregate then
    if !(← m.listsValueObject a o) then
      Check.report (.valueObjectOutsideAggregate (← m.aggregate a).name) (.domainObject entity)
        .usesValueObject
  checkPlain entity (← m.object o)

/-! ## The target of uses clauses -/

/-- The anti-corruption declaration that a binding names, reported if the context has none of that
name. Without a known context the name is not looked up. -/
def namedAntiCorruption (entity : ObjectId) (uses : EntityUses) (owner : Option ContextId) :
    Check (Option AntiCorruptionId) := do
  match uses.antiCorruption, owner with
  | some name, some c =>
    let found ← m.antiCorruptionInContext c name
    if found.isNone then
      Check.report (.unknownAntiCorruption name (← m.object entity).name) (.domainObject entity)
        .usesAntiCorruption
    return found
  | _, _ => return none

/-- The anti-corruption declaration if it is found, the value object if none is named. -/
def usesTarget (uses : EntityUses) (found : Option AntiCorruptionId) : Option UsesTarget :=
  match found with
  | some ac => some (.antiCorruption ac)
  | none => if uses.antiCorruption.isNone then uses.valueObject.map .valueObject else none

/-- The name of a target, and the type under which it declares an attribute. -/
def usedType (target : UsesTarget) (attributeName : String) : Lookup (String × Option String) := do
  match target with
  | .antiCorruption id =>
    let ac ← m.antiCorruption id
    return (ac.name, (ac.attributes.find? (·.name == attributeName)).map (·.type))
  | .valueObject o =>
    let object ← m.object o
    match ← m.attributeByName o attributeName with
    | none => return (object.name, none)
    | some a => return (object.name, some (← m.attributeOf a).type)

/-! ## Uses clauses -/

/-- Check the uses clause of an attribute. -/
def checkUsesClause (binder : String) (target : Option UsesTarget) (a : AttributeId)
    (clause : AttributeUses) : Check Unit := do
  let declared ← m.attributeOf a
  if clause.binder != binder then
    Check.report (.wrongUsesVariable declared.name binder clause.attributeName) (.attribute a)
      .variable
  match target with
  | none => return
  | some t =>
    match ← m.usedType t clause.attributeName with
    | (owner, none) =>
      Check.report (.notDeclaredBy clause.attributeName owner) (.attribute a) .usesAttribute
    | (_, some type) =>
      if type != declared.type then Check.report (.usedAttributeType type) (.attribute a) .type

/-- The uses clauses of the attributes of an object. -/
def usesClauses (o : ObjectId) : Lookup (List (AttributeId × AttributeUses)) := do
  let attributes ← Lookup.map (fun a => return (a, ← m.attributeOf a)) (← m.object o).attributes
  return attributes.filterMap fun (a, declared) => declared.uses.map (a, ·)

/-- The name of the translation that carries the key of the mapped aggregate's root. -/
def keyTranslation (id : AntiCorruptionId) : Lookup (Option String) := do
  let ac ← m.antiCorruption id
  match ac.aggregate with
  | none => return none
  | some a =>
    match ← m.rootEntity a with
    | none => return none
    | some root =>
      match ← m.keyAttribute root with
      | none => return none
      | some key => return (ac.attributes.find? (·.entityAttribute == some key)).map (·.name)

/-- Check that some uses clause names the translation of the key. -/
def checkKeyTranslation (entity : ObjectId) (id : AntiCorruptionId) (used : List String) :
    Check Unit := do
  match ← m.keyTranslation id with
  | none => return
  | some name =>
    if !used.contains name then
      Check.report (.keyTranslationUnused name) (.domainObject entity) .usesAntiCorruption

/-- Check all uses clauses of an entity with a binding. -/
def checkUsesClauses (entity : ObjectId) (binder : String) (target : Option UsesTarget) :
    Check Unit := do
  let clauses ← m.usesClauses entity
  Check.each (fun (a, clause) => m.checkUsesClause binder target a clause) clauses
  match target with
  | some (.antiCorruption id) =>
    m.checkKeyTranslation entity id (clauses.map (·.2.attributeName))
  | _ => return

/-! ## Entities -/

/-- Check that no attribute of an entity without binding has a uses clause. -/
def checkNoUsesClauses (entity : ObjectId) : Check Unit := do
  let clauses ← m.usesClauses entity
  Check.each
    (fun (a, _) => do
      Check.report (.usesWithoutBinding (← m.attributeOf a).name (← m.object entity).name)
        (.attribute a) .uses)
    clauses

/-- Check the context of a binding. If the entity is in no context, any used one will do. -/
def checkBoundContext (entity : ObjectId) (object : DomainObject) (uses : EntityUses)
    (owner : Option ContextId) : Check Unit := do
  match uses.boundedContext, owner with
  | some used, some c => m.checkUsedContext entity used c
  | some _, none => return
  | none, _ =>
    Check.report (.usedContextUndefined object.name) (.domainObject entity) .usesBoundedContext

/-- Check the aggregate of a binding. -/
def checkBoundAggregate (entity : ObjectId) (object : DomainObject) (uses : EntityUses) :
    Check Unit := do
  match uses.aggregate with
  | some a => m.checkUsedAggregate entity uses.boundedContext a
  | none => Check.report (.usedAggregateUndefined object.name) (.domainObject entity) .usesAggregate

/-- Check the value object of a binding. -/
def checkBoundValueObject (entity : ObjectId) (object : DomainObject) (uses : EntityUses) :
    Check Unit := do
  match uses.valueObject with
  | some o => m.checkUsedValueObject entity uses.aggregate o
  | none =>
    Check.report (.usedValueObjectUndefined object.name) (.domainObject entity) .usesValueObject

/-- Check a uses binding. -/
def checkUsesBinding (entity : ObjectId) (uses : EntityUses) : Check Unit := do
  let object ← m.object entity
  if object.aggregateRoot then
    Check.report (.rootUsesValueObject object.name) (.domainObject entity) .aggregateRoot
  let owner ← m.contextOfObject entity
  m.checkBoundContext entity object uses owner
  m.checkBoundAggregate entity object uses
  m.checkBoundValueObject entity object uses
  let found ← m.namedAntiCorruption entity uses owner
  m.checkUsesClauses entity uses.binder (usesTarget uses found)

/-- **Check an entity's uses binding and clauses;** any other object is in order. -/
def checkEntity (o : ObjectId) : Check Unit := do
  match (← m.object o).kind.entity? with
  | none => return
  | some data =>
    match data.uses with
    | some uses => m.checkUsesBinding o uses
    | none => m.checkNoUsesClauses o

end DomainModel.Model
