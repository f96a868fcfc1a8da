import DomainModel.Check
import DomainModel.Model.Navigation

/-! # Bounded contexts and context maps

Only teams realize contexts and own them. A context map relates different contexts that are all on
the map; a directed relationship exposes aggregates of its upstream context, and a customer-supplier
relationship rules out some roles. The type of a map restricts the contexts on it. An entity that
maps an entity of another context needs that context on the map and upstream of its own. -/

namespace DomainModel.Model

variable (m : Model)

/-- Check the team rules of a bounded context. -/
def checkBoundedContext (c : ContextId) : Check Unit := do
  let context ← m.context c
  if !context.realizes.isEmpty && context.type != .team then
    Check.report (.realizesButNotTeam context.name) (.context c) .realizes
  match context.owner with
  | none => return
  | some o =>
    let owner ← m.context o
    if owner.type != .team then Check.report (.ownerNotTeam owner.name) (.context c) .owner

/-! ## Relationships -/

/-- The features that hold the two participants. -/
def participantFeatures : Relationship → Feature × Feature
  | .symmetric .. => (.participant1, .participant2)
  | .upstreamDownstream _ => (.upstream, .downstream)

/-- Report a participant that is not on the map. -/
def checkParticipant (map : ContextMap) (r : RelationshipId) (participant : Option ContextId)
    (feature : Feature) : Check Unit := do
  match participant with
  | none => return
  | some c =>
    if !map.contexts.contains c then
      Check.report (.contextOffMap (← m.context c).name) (.relationship r) feature

/-- Report the exposed aggregates that do not belong to the upstream context. -/
def checkExposed (r : RelationshipId) (up : ContextId) (exposed : List AggregateId) :
    Check Unit := do
  let owned ← m.contextAggregates up
  Check.eachIdx
    (fun a i => do
      if !owned.contains a then
        let aggregate ← m.aggregate a
        let upstream ← m.context up
        Check.reportAt (.exposedAggregateForeign aggregate.name upstream.name) (.relationship r)
          .upstreamExposedAggregates i)
    exposed

/-- Report the roles that do not fit a customer-supplier relationship. -/
def checkRoles (r : RelationshipId) (supply : Supply) : Check Unit := do
  if supply.customerSupplier then
    if supply.downstreamRoles.contains .conformist then
      Check.report .conformistCustomer (.relationship r) .downstreamRoles
    if supply.upstreamRoles.contains .openHostService then
      Check.report .openHostSupplier (.relationship r) .upstreamRoles
    if supply.downstreamRoles.contains .antiCorruptionLayer then
      Check.report .antiCorruptionCustomer (.relationship r) .downstreamRoles

/-- Check a relationship of a map. -/
def checkRelationship (map : ContextMap) (r : RelationshipId) : Check Unit := do
  let relationship ← m.relationship r
  let (first, second) := relationship.participants
  let (firstFeature, secondFeature) := participantFeatures relationship
  m.checkParticipant map r first firstFeature
  m.checkParticipant map r second secondFeature
  if first.isSome && first == second then
    Check.report .sameParticipants (.relationship r) secondFeature
  match relationship with
  | .symmetric .. => return
  | .upstreamDownstream supply =>
    if let some up := supply.upstream then m.checkExposed r up supply.exposedAggregates
    checkRoles r supply

/-! ## The type of a map -/

/-- Check that the contexts on a map fit its type. -/
def checkMapType (h : ContextMapId) (map : ContextMap) : Check Unit := do
  match map.type with
  | none => return
  | some .organizational =>
    let hasTeam ← Lookup.any (fun c => return (← m.context c).type == .team) map.contexts
    if !hasTeam then Check.report .organizationalWithoutTeam (.contextMap h) .type
  | some .systemLandscape =>
    Check.eachIdx
      (fun c i => do
        if (← m.context c).type == .team then
          Check.reportAt .teamOnLandscape (.contextMap h) .boundedContexts i)
      map.contexts

/-! ## Entity mappings across a map -/

/-- A relationship of the map puts a context named `up` upstream of one named like `owner`. -/
def declaresUpstream (map : ContextMap) (up : String) (owner : ContextId) : Lookup Bool :=
  Lookup.any
    (fun r => do
      match (← m.relationship r).upstreamDownstream? with
      | some (some u, some d) =>
        if (← m.context d).name == (← m.context owner).name then
          return (← m.context u).name == up
        else return false
      | _ => return false)
    map.relationships

/-- Check the mapping of an entity of the context `owner` against a map. -/
def checkMappingOnMap (map : ContextMap) (owner : ContextId) (entity : ObjectId)
    (mapping : EntityMapping) : Check Unit := do
  let mapped ← Lookup.filter (fun c => return (← m.context c).name == mapping.boundedContext)
    map.contexts
  if mapped.isEmpty then
    Check.report (.mappedContextUnknown mapping.boundedContext) (.domainObject entity) .mapping
  if !(← m.declaresUpstream map mapping.boundedContext owner) then
    Check.report (.contextNotUpstream mapping.boundedContext) (.domainObject entity) .mapping
  let candidates ← Lookup.flatMap m.contextAggregates mapped
  let aggregates ← Lookup.filter (fun a => return (← m.aggregate a).name == mapping.aggregate)
    candidates
  if aggregates.isEmpty then
    Check.report (.mappedAggregateForeign mapping.aggregate) (.domainObject entity) .mapping
  match mapping.entity with
  | none => return
  | some target =>
    if !(← Lookup.any (m.listsEntity · target) aggregates) then
      Check.report (.mappedEntityForeign (← m.object target).name) (.domainObject entity) .mapping

/-- Check the mappings of the entities of all contexts on a map. -/
def checkMappingsOnMap (map : ContextMap) : Check Unit :=
  Check.each
    (fun c => do
      Check.each
        (fun a => do
          Check.each
            (fun o => do
              match (← m.object o).mapping? with
              | none => return
              | some mapping => m.checkMappingOnMap map c o mapping)
            (← m.aggregate a).objects)
        (← m.contextAggregates c))
    map.contexts

/-- **Check a context map:** its relationships, its type, and the entity mappings across it. -/
def checkContextMap (h : ContextMapId) : Check Unit := do
  let map ← m.contextMap h
  Check.each (m.checkRelationship map) map.relationships
  m.checkMapType h map
  m.checkMappingsOnMap map

end DomainModel.Model
