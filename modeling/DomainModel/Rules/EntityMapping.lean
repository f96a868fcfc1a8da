import DomainModel.Check
import DomainModel.Model.Navigation

/-! # Aggregates and entity mappings

An aggregate has at most one object flagged as root and at most one lifecycle enum; if there are
more, each of them is reported.

An entity mapping makes an entity stand for the root entity of another aggregate. Aliases name the
ends of reference chains from the mapped root; an attribute mapping starts at the root or an alias,
follows a chain of references and ends in an attribute of the declared type. Some attribute mapping
ends in the key attribute of the mapped root. -/

namespace DomainModel.Model

variable (m : Model)

/-! ## Reference chains -/

/-- What keeps a reference from being a step to another entity, or the entity it leads to. -/
def referenceStep (current : ObjectId) (r : ReferenceId) : Lookup (Except Problem ObjectId) := do
  let reference ← m.reference r
  let object ← m.object current
  if !object.references.contains r then
    return .error (.referenceForeign reference.name object.name)
  else if reference.collection.isCollection then
    return .error (.referenceIsCollection reference.name)
  else
    match reference.target with
    | none => return .error (.referenceNotToEntity reference.name)
    | some target =>
      if (← m.object target).isEntity then return .ok target
      else return .error (.referenceNotToEntity reference.name)

/-- Follow a chain whose first reference has the position `index`. A reference that is no step is
reported and skipped. -/
def walkReferences (node : NodeRef) (index : Nat) (current : ObjectId) :
    List ReferenceId → Check ObjectId
  | [] => return current
  | r :: rest => do
    match ← m.referenceStep current r with
    | .ok target => walkReferences node (index + 1) target rest
    | .error problem =>
      Check.reportAt problem node .references index
      walkReferences node (index + 1) current rest

/-! ## Aliases -/

/-- Aliases with the objects they stand for, the last declared one first. -/
abbrev Aliases := List (String × ObjectId)

/-- Check the aliases from position `index` on, given those before them. -/
def checkAliases (entity mapped : ObjectId) (index : Nat) (known : Aliases) :
    List AliasDeclaration → Check Aliases
  | [] => return known
  | declaration :: rest => do
    let node := NodeRef.aliasDeclaration entity index
    if known.any (·.1 == declaration.name) then
      Check.report (.aliasRepeated declaration.name) node .name
    let target ← m.walkReferences node 0 mapped declaration.references
    checkAliases entity mapped (index + 1) ((declaration.name, target) :: known) rest

/-! ## Attribute mappings -/

/-- The object where an attribute path starts; of aliases with one name the last one counts. -/
def pathStart (mapped : ObjectId) (aliases : Aliases) : AttributePathHead → Option ObjectId
  | .root => some mapped
  | .declared name => (aliases.find? (·.1 == name)).map (·.2)

/-- Check one attribute mapping, its name apart, and find the attribute it ends in. -/
def checkAttributePath (node : NodeRef) (mapped : ObjectId) (aliases : Aliases)
    (mapping : EntityAttributeMapping) : Check (Option AttributeId) := do
  match pathStart mapped aliases mapping.path.head with
  | none =>
    if let .declared name := mapping.path.head then
      Check.report (.aliasUndeclared name) node .attributePathHead
    return none
  | some start =>
    let owner ← m.walkReferences node 0 start mapping.path.references
    match ← m.attributeByName owner mapping.path.attributeName with
    | none =>
      let object ← m.object owner
      Check.report (.pathAttributeUnknown mapping.path.attributeName object.name) node .attribute
      return none
    | some a =>
      let leaf ← m.attributeOf a
      if leaf.type != mapping.type then
        Check.report (.declaredType .mapping leaf.type) node .type
      return some a

/-- Check the attribute mappings from position `index` on, given the names before them, and collect
the attributes they end in. -/
def checkAttributeMappings (entity mapped : ObjectId) (aliases : Aliases) (index : Nat)
    (names : List String) : List EntityAttributeMapping → Check (List AttributeId)
  | [] => return []
  | mapping :: rest => do
    let node := NodeRef.attributeMapping entity index
    if names.contains mapping.name then
      Check.report (.attributeRepeated .mapping mapping.name) node .name
    let leaf ← m.checkAttributePath node mapped aliases mapping
    let leaves ← checkAttributeMappings entity mapped aliases (index + 1) (mapping.name :: names)
      rest
    return leaf.toList ++ leaves

/-! ## Mappings -/

/-- Check the mapped root of a mapping and find its key attribute. -/
def checkMappedRoot (entity mapped : ObjectId) : Check (Option AttributeId) := do
  let root ← m.object mapped
  if !root.isRootEntity then
    Check.report (.mappedEntityNotRoot root.name) (.domainObject entity) .mapping
  let key ← m.keyAttribute mapped
  if key.isNone then
    Check.report (.rootWithoutKey root.name) (.domainObject mapped) .mapping
  return key

/-- **Check an entity mapping.** -/
def checkEntityMapping (entity : ObjectId) (mapping : EntityMapping) : Check Unit := do
  let object ← m.object entity
  if object.aggregateRoot then
    Check.report (.rootDeclaresMapping object.name) (.domainObject entity) .mapping
  match mapping.entity with
  | none => Check.report (.mappingUnresolved object.name) (.entityMapping entity) .entity
  | some mapped =>
    let key ← m.checkMappedRoot entity mapped
    let aliases ← m.checkAliases entity mapped 0 [] mapping.aliases
    let leaves ← m.checkAttributeMappings entity mapped aliases 0 [] mapping.attributes
    if let some k := key then
      if !leaves.contains k then
        Check.report (.keyNotMapped (← m.attributeOf k).name) (.domainObject entity) .mapping

/-! ## Aggregates -/

/-- Report all of the objects if there is more than one. -/
def reportIfSeveral (problem : Problem) (feature : Feature) (objects : List ObjectId) :
    Check Unit := do
  if objects.length > 1 then
    Check.each (fun o => Check.report problem (.domainObject o) feature) objects

/-- Check that an aggregate has at most one object flagged as root. -/
def checkSingleRoot (aggregate : Aggregate) : Check Unit := do
  let roots ← Lookup.filter (fun o => return (← m.object o).aggregateRoot) aggregate.objects
  reportIfSeveral (.multipleRoots aggregate.name) .aggregateRoot roots

/-- Check that an aggregate has at most one enum that declares its states. -/
def checkSingleLifecycle (aggregate : Aggregate) : Check Unit := do
  let enums ← Lookup.filter (fun o => return (← m.object o).kind.isLifecycleEnum) aggregate.objects
  reportIfSeveral (.multipleLifecycleEnums aggregate.name) .definesAggregateLifecycle enums

/-- **Check an aggregate:** its root, its lifecycle, and the mappings of its entities. -/
def checkAggregate (a : AggregateId) : Check Unit := do
  let aggregate ← m.aggregate a
  m.checkSingleRoot aggregate
  m.checkSingleLifecycle aggregate
  Check.each
    (fun o => do
      match (← m.object o).mapping? with
      | none => return
      | some mapping => m.checkEntityMapping o mapping)
    aggregate.objects

end DomainModel.Model
