import DomainModel.Analysis
import DomainModel.Proofs.Places.Basic

/-! # Where the rules report

For every rule, typing apart: it reports within `P` if `P` holds of the places listed by the
hypotheses. These are the features of the nodes it is about, and positions in the lists it goes
through. The lemmas ask nothing of the model; a handle that points nowhere is read as a default
node, as it is by the rule. -/

namespace DomainModel

open Check

variable {P : Location → Prop}

/-! ### Distinct names -/

theorem within_reportRepeated (category : NameCategory) {named : List (NodeRef × String)}
    (h : ∀ p ∈ named, Everywhere P p.1) : (reportRepeated category named).Within P := by
  refine within_each fun p hp => ?_
  exact within_lift_bind (within_ite (within_report (h p hp .name)))

namespace Model

variable {m : Model}

theorem within_checkNames (hcontext : ∀ c ∈ m.contextIds, Everywhere P (.context c))
    (haggregate : ∀ a ∈ m.aggregateIds, Everywhere P (.aggregate a))
    (hobject : ∀ o ∈ m.objectIds, Everywhere P (.domainObject o))
    (hinvariant : ∀ a ∈ m.aggregateIds, ∀ i < (m.aggregate a).value.invariants.length,
      Everywhere P (.intraInvariant a i)) : m.checkNames.Within P := by
  refine within_lift_bind ((within_reportRepeated _ ?_).bind fun _ => ?_)
  · intro p hp
    rw [Lookup.value_map] at hp
    obtain ⟨c, hc, rfl⟩ := List.mem_map.mp hp
    exact hcontext c hc
  refine within_lift_bind ((within_reportRepeated _ ?_).bind fun _ => ?_)
  · intro p hp
    rw [listedModules, Lookup.value_flatMap] at hp
    obtain ⟨c, hc, hp⟩ := List.mem_flatMap.mp hp
    rw [Lookup.value_bind, Lookup.value_map] at hp
    obtain ⟨h, -, rfl⟩ := List.mem_map.mp hp
    exact hcontext c hc
  refine within_lift_bind ((within_reportRepeated _ ?_).bind fun _ => ?_)
  · intro p hp
    rw [Lookup.value_map] at hp
    obtain ⟨a, ha, rfl⟩ := List.mem_map.mp hp
    exact haggregate a ha
  refine within_lift_bind ((within_reportRepeated _ ?_).bind fun _ => ?_)
  · intro p hp
    rw [Lookup.value_map] at hp
    obtain ⟨o, ho, rfl⟩ := List.mem_map.mp hp
    exact hobject o ho
  refine within_each fun a ha => within_lift_bind (within_reportRepeated _ ?_)
  intro p hp
  obtain ⟨⟨invariant, i⟩, hi, rfl⟩ := List.mem_map.mp hp
  exact hinvariant a ha i (List.snd_lt_of_mem_zipIdx hi)

/-! ### Bounded contexts and context maps -/

theorem within_checkBoundedContext {c : ContextId} (h : Everywhere P (.context c)) :
    (m.checkBoundedContext c).Within P := by
  refine within_lift_bind (within_ite_bind (within_report (h _)) fun _ => ?_)
  split
  · exact within_pure
  · exact within_lift_bind (within_ite (within_report (h _)))

theorem within_checkParticipant (map : ContextMap) {r : RelationshipId}
    (participant : Option ContextId) {feature : Feature} (h : Everywhere P (.relationship r)) :
    (m.checkParticipant map r participant feature).Within P := by
  cases participant with
  | none => exact within_pure
  | some c => exact within_ite (within_lift_bind (within_report (h _)))

theorem within_checkExposed {r : RelationshipId} (up : ContextId) {exposed : List AggregateId}
    (h : Throughout P (.relationship r) .upstreamExposedAggregates exposed.length) :
    (m.checkExposed r up exposed).Within P := by
  refine within_lift_bind (within_eachIdx fun i a hi => within_ite ?_)
  refine within_lift_bind (within_lift_bind (within_reportAt (h i ?_)))
  exact (List.getElem?_eq_some_iff.mp hi).1

theorem within_checkRoles {r : RelationshipId} (supply : Supply)
    (h : Everywhere P (.relationship r)) : (checkRoles r supply).Within P := by
  refine within_ite ?_
  refine within_ite_bind (within_report (h _)) fun _ => ?_
  refine within_ite_bind (within_report (h _)) fun _ => ?_
  exact within_ite (within_report (h _))

theorem within_checkRelationship (map : ContextMap) {r : RelationshipId}
    (h : Everywhere P (.relationship r))
    (hexposed : ∀ supply, (m.relationship r).value = .upstreamDownstream supply →
      Throughout P (.relationship r) .upstreamExposedAggregates supply.exposedAggregates.length) :
    (m.checkRelationship map r).Within P := by
  refine within_lift_bind ?_
  dsimp only
  refine (within_checkParticipant map _ h).bind fun _ => ?_
  refine (within_checkParticipant map _ h).bind fun _ => ?_
  refine within_ite_bind (within_report (h _)) fun _ => ?_
  split
  · exact within_pure
  · next supply hsupply =>
    split
    · exact (within_checkExposed _ (hexposed supply hsupply)).bind fun _ => within_checkRoles _ h
    · exact within_checkRoles _ h

theorem within_checkMapType {h : ContextMapId} {map : ContextMap}
    (hmap : Everywhere P (.contextMap h))
    (hcontext : Throughout P (.contextMap h) .boundedContexts map.contexts.length) :
    (m.checkMapType h map).Within P := by
  unfold checkMapType
  split
  · exact within_pure
  · exact within_lift_bind (within_ite (within_report (hmap _)))
  · refine within_eachIdx fun i c hi => within_lift_bind (within_ite (within_reportAt ?_))
    exact hcontext i (List.getElem?_eq_some_iff.mp hi).1

theorem within_checkMappingOnMap (map : ContextMap) (owner : ContextId) {entity : ObjectId}
    (mapping : EntityMapping) (h : Everywhere P (.domainObject entity)) :
    (m.checkMappingOnMap map owner entity mapping).Within P := by
  refine within_lift_bind (within_ite_bind (within_report (h _)) fun _ => ?_)
  refine within_lift_bind (within_ite_bind (within_report (h _)) fun _ => ?_)
  refine within_lift_bind (within_lift_bind ?_)
  refine within_ite_bind (within_report (h _)) fun _ => ?_
  split
  · exact within_pure
  · exact within_lift_bind (within_ite (within_lift_bind (within_report (h _))))

theorem within_checkMappingsOnMap {map : ContextMap}
    (h : ∀ c ∈ map.contexts, ∀ a ∈ (m.contextAggregates c).value,
      ∀ o ∈ (m.aggregate a).value.objects, Everywhere P (.domainObject o)) :
    (m.checkMappingsOnMap map).Within P := by
  refine within_each fun c hc => within_lift_bind ?_
  refine within_each fun a ha => within_lift_bind ?_
  refine within_each fun o ho => within_lift_bind ?_
  split
  · exact within_pure
  · exact within_checkMappingOnMap map c _ (h c hc a ha o ho)

theorem within_checkContextMap {h : ContextMapId} (hmap : Everywhere P (.contextMap h))
    (hcontext : Throughout P (.contextMap h) .boundedContexts
      (m.contextMap h).value.contexts.length)
    (hrelationship : ∀ r ∈ (m.contextMap h).value.relationships, Everywhere P (.relationship r))
    (hexposed : ∀ r ∈ (m.contextMap h).value.relationships, ∀ supply,
      (m.relationship r).value = .upstreamDownstream supply →
      Throughout P (.relationship r) .upstreamExposedAggregates supply.exposedAggregates.length)
    (hobject : ∀ c ∈ (m.contextMap h).value.contexts, ∀ a ∈ (m.contextAggregates c).value,
      ∀ o ∈ (m.aggregate a).value.objects, Everywhere P (.domainObject o)) :
    (m.checkContextMap h).Within P := by
  refine within_lift_bind (Within.bind (within_each fun r hr => ?_) fun _ => ?_)
  · exact within_checkRelationship _ (hrelationship r hr) (hexposed r hr)
  · refine (within_checkMapType hmap hcontext).bind fun _ => ?_
    exact within_checkMappingsOnMap hobject

/-! ### Aggregates and entity mappings -/

theorem within_walkReferences {node : NodeRef} {index n : Nat} (current : ObjectId)
    {references : List ReferenceId} (h : Throughout P node .references n)
    (hn : index + references.length = n) :
    (m.walkReferences node index current references).Within P := by
  induction references generalizing index current with
  | nil => exact within_pure
  | cons r rest ih =>
    rw [List.length_cons] at hn
    refine within_lift_bind ?_
    split
    · exact ih _ (by omega)
    · exact (within_reportAt (h index (by omega))).bind fun _ => ih _ (by omega)

/-- The places of a node with a chain of references. -/
structure WithinChain (P : Location → Prop) (node : NodeRef) (references : List ReferenceId) :
    Prop where
  whole : Everywhere P node
  reference : Throughout P node .references references.length

theorem within_checkAliases {entity : ObjectId} (mapped : ObjectId) {index : Nat}
    (known : Aliases) {declarations : List AliasDeclaration}
    (h : ∀ i d, declarations[i]? = some d →
      WithinChain P (.aliasDeclaration entity (index + i)) d.references) :
    (m.checkAliases entity mapped index known declarations).Within P := by
  induction declarations generalizing index known with
  | nil => exact within_pure
  | cons declaration rest ih =>
    have hfirst := h 0 declaration rfl
    rw [checkAliases]
    refine within_ite_bind (within_report (hfirst.whole _)) fun _ => ?_
    refine (within_walkReferences _ hfirst.reference (Nat.zero_add _)).bind fun target => ?_
    refine ih _ fun i d hd => ?_
    rw [Nat.add_right_comm]
    exact h (i + 1) d hd

theorem within_checkAttributePath {node : NodeRef} (mapped : ObjectId) (aliases : Aliases)
    {mapping : EntityAttributeMapping} (h : WithinChain P node mapping.path.references) :
    (m.checkAttributePath node mapped aliases mapping).Within P := by
  unfold checkAttributePath
  split
  · split
    · exact (within_report (h.whole _)).bind fun _ => within_pure
    · exact within_pure
  · refine (within_walkReferences _ h.reference (Nat.zero_add _)).bind fun owner => ?_
    refine within_lift_bind ?_
    split
    · exact within_lift_bind ((within_report (h.whole _)).bind fun _ => within_pure)
    · exact within_lift_bind (within_ite_bind (within_report (h.whole _)) fun _ => within_pure)

theorem within_checkAttributeMappings {entity : ObjectId} (mapped : ObjectId) (aliases : Aliases)
    {index : Nat} (names : List String) {mappings : List EntityAttributeMapping}
    (h : ∀ i a, mappings[i]? = some a →
      WithinChain P (.attributeMapping entity (index + i)) a.path.references) :
    (m.checkAttributeMappings entity mapped aliases index names mappings).Within P := by
  induction mappings generalizing index names with
  | nil => exact within_pure
  | cons mapping rest ih =>
    have hfirst := h 0 mapping rfl
    rw [checkAttributeMappings]
    refine within_ite_bind (within_report (hfirst.whole _)) fun _ => ?_
    refine (within_checkAttributePath mapped aliases hfirst).bind fun leaf => ?_
    refine Within.bind (ih _ fun i a ha => ?_) fun _ => within_pure
    rw [Nat.add_right_comm]
    exact h (i + 1) a ha

/-- The places of an entity mapping. -/
structure WithinMapping (P : Location → Prop) (entity : ObjectId) (mapping : EntityMapping) :
    Prop where
  object : Everywhere P (.domainObject entity)
  whole : Everywhere P (.entityMapping entity)
  mapped : ∀ o ∈ mapping.entity, Everywhere P (.domainObject o)
  aliases : ∀ i d, mapping.aliases[i]? = some d →
    WithinChain P (.aliasDeclaration entity i) d.references
  attributes : ∀ i a, mapping.attributes[i]? = some a →
    WithinChain P (.attributeMapping entity i) a.path.references

theorem within_checkMappedRoot {entity mapped : ObjectId}
    (hentity : Everywhere P (.domainObject entity))
    (hmapped : Everywhere P (.domainObject mapped)) :
    (m.checkMappedRoot entity mapped).Within P := by
  refine within_lift_bind (within_ite_bind (within_report (hentity _)) fun _ => ?_)
  exact within_lift_bind (within_ite_bind (within_report (hmapped _)) fun _ => within_pure)

theorem within_checkEntityMapping {entity : ObjectId} {mapping : EntityMapping}
    (h : WithinMapping P entity mapping) : (m.checkEntityMapping entity mapping).Within P := by
  refine within_lift_bind (within_ite_bind (within_report (h.object _)) fun _ => ?_)
  split
  · exact within_report (h.whole _)
  · next mapped hsome =>
    refine (within_checkMappedRoot h.object (h.mapped mapped hsome)).bind fun key => ?_
    refine (within_checkAliases mapped _ ?_).bind fun aliases => ?_
    · simpa using h.aliases
    refine (within_checkAttributeMappings mapped aliases _ ?_).bind fun leaves => ?_
    · simpa using h.attributes
    split
    · exact within_ite (within_lift_bind (within_report (h.object _)))
    · exact within_pure

theorem within_reportIfSeveral (problem : Problem) (feature : Feature) {objects : List ObjectId}
    (h : ∀ o ∈ objects, Everywhere P (.domainObject o)) :
    (reportIfSeveral problem feature objects).Within P :=
  within_ite (within_each fun o ho => within_report (h o ho feature))

theorem within_checkAggregate {a : AggregateId}
    (hobject : ∀ o ∈ (m.aggregate a).value.objects, Everywhere P (.domainObject o))
    (hmapping : ∀ o ∈ (m.aggregate a).value.objects, ∀ mapping ∈ (m.object o).value.mapping?,
      WithinMapping P o mapping) : (m.checkAggregate a).Within P := by
  refine within_lift_bind ?_
  refine Within.bind (within_lift_bind (within_reportIfSeveral _ _ ?_)) fun _ => ?_
  · intro o ho
    rw [Lookup.value_filter] at ho
    exact hobject o (List.mem_filter.mp ho).1
  refine Within.bind (within_lift_bind (within_reportIfSeveral _ _ ?_)) fun _ => ?_
  · intro o ho
    rw [Lookup.value_filter] at ho
    exact hobject o (List.mem_filter.mp ho).1
  refine within_each fun o ho => within_lift_bind ?_
  split
  · exact within_pure
  · next mapping hsome => exact within_checkEntityMapping (hmapping o ho mapping hsome)

/-! ### Uses bindings -/

theorem within_checkUsedContext {entity : ObjectId} (used owner : ContextId)
    (h : Everywhere P (.domainObject entity)) :
    (m.checkUsedContext entity used owner).Within P := by
  refine within_lift_bind (within_ite_lift_bind (within_report (h _)) fun _ => ?_)
  exact within_ite (within_report (h _))

theorem within_checkUsedRoot {entity : ObjectId} (a : AggregateId)
    (h : Everywhere P (.domainObject entity)) : (m.checkUsedRoot entity a).Within P := by
  refine within_lift_bind ?_
  split
  · exact within_report (h _)
  · exact within_lift_bind (within_ite (within_lift_bind (within_report (h _))))

theorem within_checkUsedAggregate {entity : ObjectId} (context : Option ContextId)
    (a : AggregateId) (h : Everywhere P (.domainObject entity)) :
    (m.checkUsedAggregate entity context a).Within P := by
  cases context with
  | none => exact within_checkUsedRoot a h
  | some c =>
    refine within_lift_bind (within_ite_lift_bind (within_report (h _)) fun _ => ?_)
    exact within_checkUsedRoot a h

theorem within_checkPlain {entity : ObjectId} (valueObject : DomainObject)
    (h : Everywhere P (.domainObject entity)) : (checkPlain entity valueObject).Within P := by
  refine within_lift_bind (within_ite_bind (within_report (h _)) fun _ => ?_)
  exact within_ite (within_report (h _))

theorem within_checkUsedValueObject {entity : ObjectId} (aggregate : Option AggregateId)
    (o : ObjectId) (h : Everywhere P (.domainObject entity)) :
    (m.checkUsedValueObject entity aggregate o).Within P := by
  cases aggregate with
  | none => exact within_lift_bind (within_checkPlain _ h)
  | some a =>
    refine within_lift_bind (within_ite_lift_bind (within_report (h _)) fun _ => ?_)
    exact within_lift_bind (within_checkPlain _ h)

theorem within_namedAntiCorruption {entity : ObjectId} (uses : EntityUses)
    (owner : Option ContextId) (h : Everywhere P (.domainObject entity)) :
    (m.namedAntiCorruption entity uses owner).Within P := by
  unfold namedAntiCorruption
  split
  · refine within_lift_bind (within_ite_lift_bind (within_report (h _)) fun _ => ?_)
    exact within_pure
  · exact within_pure

theorem within_checkUsesClause (binder : String) (target : Option UsesTarget) {a : AttributeId}
    (clause : AttributeUses) (h : Everywhere P (.attribute a)) :
    (m.checkUsesClause binder target a clause).Within P := by
  refine within_lift_bind (within_ite_bind (within_report (h _)) fun _ => ?_)
  split
  · exact within_pure
  · refine within_lift_bind ?_
    split
    · exact within_report (h _)
    · exact within_ite (within_report (h _))

/-- Uses clauses stand on the attributes of the object. -/
theorem mem_attributes_of_usesClauses {o : ObjectId} {p : AttributeId × AttributeUses}
    (hp : p ∈ (m.usesClauses o).value) : p.1 ∈ (m.object o).value.attributes := by
  unfold usesClauses at hp
  simp only [Lookup.value_bind, Lookup.value_pure, Lookup.value_map] at hp
  obtain ⟨q, hq, hclause⟩ := List.mem_filterMap.mp hp
  obtain ⟨a, ha, rfl⟩ := List.mem_map.mp hq
  obtain ⟨clause, -, rfl⟩ := Option.map_eq_some_iff.mp hclause
  exact ha

theorem within_checkUsesClauses {entity : ObjectId} (binder : String)
    (target : Option UsesTarget) (h : Everywhere P (.domainObject entity))
    (hattribute : ∀ a ∈ (m.object entity).value.attributes, Everywhere P (.attribute a)) :
    (m.checkUsesClauses entity binder target).Within P := by
  refine within_lift_bind (Within.bind (within_each fun p hp => ?_) fun _ => ?_)
  · exact within_checkUsesClause binder target p.2 (hattribute _ (mem_attributes_of_usesClauses hp))
  · split
    · refine within_lift_bind ?_
      split
      · exact within_pure
      · exact within_ite (within_report (h _))
    · exact within_pure

theorem within_checkNoUsesClauses {entity : ObjectId}
    (hattribute : ∀ a ∈ (m.object entity).value.attributes, Everywhere P (.attribute a)) :
    (m.checkNoUsesClauses entity).Within P := by
  refine within_lift_bind (within_each fun p hp => ?_)
  refine within_lift_bind (within_lift_bind (within_report ?_))
  exact hattribute _ (mem_attributes_of_usesClauses hp) _

theorem within_checkUsesBinding {entity : ObjectId} (uses : EntityUses)
    (h : Everywhere P (.domainObject entity))
    (hattribute : ∀ a ∈ (m.object entity).value.attributes, Everywhere P (.attribute a)) :
    (m.checkUsesBinding entity uses).Within P := by
  have hcontext : ∀ object owner, (m.checkBoundContext entity object uses owner).Within P := by
    intro object owner
    unfold checkBoundContext
    split
    · exact within_checkUsedContext _ _ h
    · exact within_pure
    · exact within_report (h _)
  have haggregate : ∀ object, (m.checkBoundAggregate entity object uses).Within P := by
    intro object
    unfold checkBoundAggregate
    split
    · exact within_checkUsedAggregate _ _ h
    · exact within_report (h _)
  have hvalueObject : ∀ object, (m.checkBoundValueObject entity object uses).Within P := by
    intro object
    unfold checkBoundValueObject
    split
    · exact within_checkUsedValueObject _ _ h
    · exact within_report (h _)
  refine within_lift_bind (within_ite_bind (within_report (h _)) fun _ => within_lift_bind ?_)
  refine (hcontext _ _).bind fun _ => (haggregate _).bind fun _ => (hvalueObject _).bind fun _ => ?_
  refine (within_namedAntiCorruption uses _ h).bind fun found => ?_
  exact within_checkUsesClauses _ _ h hattribute

theorem within_checkEntity {o : ObjectId} (h : Everywhere P (.domainObject o))
    (hattribute : ∀ a ∈ (m.object o).value.attributes, Everywhere P (.attribute a)) :
    (m.checkEntity o).Within P := by
  refine within_lift_bind ?_
  split
  · exact within_pure
  · split
    · exact within_checkUsesBinding _ h hattribute
    · exact within_checkNoUsesClauses hattribute

/-! ### Constructors and operations -/

theorem within_checkParameters {callable : Callable} (object : DomainObject)
    {parameters : List Parameter} (h : Everywhere P (.callable callable))
    (hparameter : ∀ i < parameters.length, Everywhere P (.parameter callable i)) :
    (m.checkParameters callable object parameters).Within P := by
  refine Within.bind (within_eachIdx fun i p hi => ?_) fun _ => ?_
  · refine within_lift_bind (within_ite (within_report (hparameter i ?_ _)))
    exact (List.getElem?_eq_some_iff.mp hi).1
  · exact within_ite (within_lift_bind (within_ite (within_report (h _))))

theorem within_checkKeyAssigned {callable : Callable} (object : DomainObject)
    (parameters : List Parameter) (assignments : List Assigned)
    (h : Everywhere P (.callable callable)) :
    (m.checkKeyAssigned callable object parameters assignments).Within P := by
  unfold checkKeyAssigned
  split
  · exact within_pure
  · refine within_lift_bind ?_
    split
    · exact within_pure
    · refine within_lift_bind ?_
      split
      · exact within_pure
      · exact within_lift_bind (within_lift_bind (within_ite (within_report (h _))))

theorem mem_of_mem_repeatedAssignments {seen : List String} {a : Assigned} {as : List Assigned}
    (h : a ∈ repeatedAssignments seen as) : a ∈ as := by
  induction as generalizing seen with
  | nil => cases h
  | cons first rest ih =>
    unfold repeatedAssignments at h
    split at h
    · rcases List.mem_cons.mp h with rfl | h
      · exact List.mem_cons_self
      · exact List.mem_cons_of_mem _ (ih h)
    · exact List.mem_cons_of_mem _ (ih h)

theorem within_checkCoverage {callable : Callable} (o : ObjectId) {assignments : List Assigned}
    (h : Everywhere P (.callable callable))
    (hassignment : ∀ a ∈ assignments, Everywhere P (.assignment callable a.index)) :
    (m.checkCoverage callable o assignments).Within P := by
  refine Within.bind (within_each fun a ha => ?_) fun _ => within_lift_bind ?_
  · exact within_report (hassignment a (mem_of_mem_repeatedAssignments ha) _)
  refine Within.bind (within_each fun a _ => ?_) fun _ => within_each fun a ha => ?_
  · exact within_lift_bind (within_ite (within_report (h _)))
  · exact within_lift_bind (within_ite (within_report (hassignment a ha _)))

theorem within_checkCommands {callable : Callable} {commands : List Command}
    (hcommand : Throughout P (.callable callable) .commands commands.length)
    (hassignment : ∀ i left right, commands[i]? = some (.assignment left right) →
      Everywhere P (.assignment callable i)) : (checkCommands callable commands).Within P := by
  refine within_eachIdx fun i command hi => ?_
  cases command with
  | assignment left right => exact within_ite (within_report (hassignment i left right hi _))
  | other text => exact within_reportAt (hcommand i (List.getElem?_eq_some_iff.mp hi).1)

/-! ### Anti-corruption declarations -/

theorem within_checkMappedContext {id : AntiCorruptionId} (ac : AntiCorruption)
    (h : Everywhere P (.antiCorruption id)) : (m.checkMappedContext id ac).Within P := by
  unfold checkMappedContext
  split
  · exact within_report (h _)
  · refine within_lift_bind (within_ite_lift_bind (within_report (h _)) fun _ => ?_)
    split
    · exact within_lift_bind (within_ite (within_lift_bind (within_report (h _))))
    · exact within_pure

theorem within_checkTranslation (kind : AntiCorruptionKind) {node : NodeRef} (a : AggregateId)
    (t : AttributeTranslation) (h : Everywhere P node) :
    (m.checkTranslation kind node a t).Within P := by
  unfold checkTranslation
  split
  · refine Within.bind ?_ fun _ => within_lift_bind (within_lift_bind ?_)
    · exact within_lift_bind (within_ite (within_lift_bind (within_report (h _))))
    split
    · exact (within_report (h _)).bind fun _ => within_pure
    · exact within_lift_bind (within_ite_bind (within_report (h _)) fun _ => within_pure)
  · exact (within_report (h _)).bind fun _ => within_pure

theorem within_checkTranslations {id : AntiCorruptionId} (kind : AntiCorruptionKind)
    (a : AggregateId) {index n : Nat} (names : List String)
    {translations : List AttributeTranslation}
    (h : ∀ i < n, Everywhere P (.attributeTranslation id i))
    (hn : index + translations.length = n) :
    (m.checkTranslations id kind a index names translations).Within P := by
  induction translations generalizing index names with
  | nil => exact within_pure
  | cons t rest ih =>
    rw [List.length_cons] at hn
    have hfirst := h index (by omega)
    rw [checkTranslations]
    refine within_ite_bind (within_report (hfirst _)) fun _ => ?_
    refine (within_checkTranslation kind a t hfirst).bind fun resolved => ?_
    exact Within.bind (ih _ (by omega)) fun _ => within_pure

theorem within_checkInvariantNames {id : AntiCorruptionId} {index n : Nat} (names : List String)
    {invariants : List Invariant} (h : ∀ i < n, Everywhere P (.interInvariant id i))
    (hn : index + invariants.length = n) :
    (checkInvariantNames id index names invariants).Within P := by
  induction invariants generalizing index names with
  | nil => exact within_pure
  | cons invariant rest ih =>
    rw [List.length_cons] at hn
    rw [checkInvariantNames]
    refine within_ite_bind (within_report (h index (by omega) _)) fun _ => ?_
    exact ih _ (by omega)

theorem within_checkAntiCorruption {id : AntiCorruptionId} (h : Everywhere P (.antiCorruption id))
    (hattribute : ∀ i < (m.antiCorruption id).value.attributes.length,
      Everywhere P (.attributeTranslation id i))
    (hinvariant : ∀ i < (m.antiCorruption id).value.invariants.length,
      Everywhere P (.interInvariant id i)) : (m.checkAntiCorruption id).Within P := by
  refine within_lift_bind ((within_checkMappedContext _ h).bind fun _ => ?_)
  split
  · exact within_report (h _)
  · refine within_lift_bind (Within.bind ?_ fun resolved => ?_)
    · exact within_checkTranslations _ _ _ hattribute (Nat.zero_add _)
    · refine within_ite_lift_bind (within_report (h _)) fun _ => within_ite ?_
      exact within_checkInvariantNames _ hinvariant (Nat.zero_add _)

end Model

end DomainModel
