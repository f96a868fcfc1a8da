import DomainModel.Analysis
import DomainModel.Proofs.Totality.Typing

/-! # Rules in a model in range

Each rule of the analysis misses nothing when it is applied to a node of a model in range. What a
rule looks up it got from a field of a node, from a list of all nodes or from an earlier look-up, so
it points inside its arena. A name is counted before its count is read, and the constructor
operations of an object are among its operations. -/

namespace DomainModel

/-! ### Distinct names -/

theorem mem_names_countName {k name : String} {table : List (String × Nat)} :
    k ∈ (countName name table).map (·.1) ↔ k = name ∨ k ∈ table.map (·.1) := by
  induction table with
  | nil => simp [countName]
  | cons entry rest ih =>
    obtain ⟨known, count⟩ := entry
    unfold countName
    split
    · next h =>
      rw [beq_iff_eq] at h
      subst h
      simp
    · simp only [List.map_cons, List.mem_cons, ih]
      exact or_left_comm

/-- Every name is counted. -/
theorem mem_names_nameCounts {name : String} {names : List String} (h : name ∈ names) :
    name ∈ (nameCounts names).map (·.1) := by
  have hfold : ∀ table : List (String × Nat), name ∈ names ∨ name ∈ table.map (·.1) →
      name ∈ (names.foldl (fun counts name => countName name counts) table).map (·.1) := by
    clear h
    induction names with
    | nil =>
      rintro table (h | h)
      · cases h
      · exact h
    | cons first rest ih =>
      intro table h
      refine ih (countName first table) ?_
      rw [mem_names_countName]
      rcases h with h | h
      · rcases List.mem_cons.mp h with h | h
        · exact Or.inr (Or.inl h)
        · exact Or.inl h
      · exact Or.inr (Or.inr h)
  exact hfold [] (Or.inl h)

theorem total_reportRepeated (category : NameCategory) (named : List (NodeRef × String)) :
    (reportRepeated category named).Total := by
  refine Check.total_each fun p hp => ?_
  have hname : p.2 ∈ named.map (·.2) := List.mem_map_of_mem hp
  refine (Lookup.total_entry (mem_names_nameCounts hname)).lift.bind fun _ _ => ?_
  exact Check.total_ite (Check.total_report ..)

/-- The constructor operations are among the operations. -/
theorem Model.total_isTooRich (o : DomainObject) : (Model.isTooRich o).Total :=
  (Lookup.finds_difference List.countP_le_length).bind fun _ _ => .pure trivial

theorem Relationship.participants_of_upstreamDownstream? {r : Relationship}
    {p : Option ContextId × Option ContextId} (h : r.upstreamDownstream? = some p) :
    r.participants = p := by
  cases r with
  | symmetric pattern a b => cases h
  | upstreamDownstream s =>
    cases h
    rfl

namespace Model

variable {m : Model} (hm : m.InRange)
include hm

theorem total_listedModules : m.listedModules.Total := by
  refine (Lookup.finds_flatMap (P := fun _ => True) fun c hc => ?_).total
  refine (finds_context hm (holds_of_mem_contextIds hc)).bind fun n hn => ?_
  refine Lookup.finds_map fun h hh => ?_
  exact (finds_module hm (hn.modules h hh)).bind fun _ _ => .pure trivial

theorem total_checkNames : m.checkNames.Total := by
  refine (Lookup.total_map fun c hc => ?_).lift.bind fun _ _ => ?_
  · exact (finds_context hm (holds_of_mem_contextIds hc)).bind fun _ _ => .pure trivial
  refine (total_reportRepeated ..).bind fun _ _ => ?_
  refine (total_listedModules hm).lift.bind fun _ _ => ?_
  refine (total_reportRepeated ..).bind fun _ _ => ?_
  refine (Lookup.total_map fun a ha => ?_).lift.bind fun _ _ => ?_
  · exact (finds_aggregate hm (holds_of_mem_aggregateIds ha)).bind fun _ _ => .pure trivial
  refine (total_reportRepeated ..).bind fun _ _ => ?_
  refine (Lookup.total_map fun o ho => ?_).lift.bind fun _ _ => ?_
  · exact (finds_object hm (holds_of_mem_objectIds ho)).bind fun _ _ => .pure trivial
  refine (total_reportRepeated ..).bind fun _ _ => ?_
  refine Check.total_each fun a ha => ?_
  refine (finds_aggregate hm (holds_of_mem_aggregateIds ha)).lift.bind fun _ _ => ?_
  exact total_reportRepeated ..

/-! ### Bounded contexts and context maps -/

theorem total_checkBoundedContext {c : ContextId} (hc : m.Holds c.any) :
    (m.checkBoundedContext c).Total := by
  refine (finds_context hm hc).lift.bind fun n hn => ?_
  refine Check.finds_ite_bind (Check.total_report ..) fun _ => ?_
  cases ho : n.owner with
  | none => exact .pure trivial
  | some o =>
    refine (finds_context hm (hn.owner o ho)).lift.bind fun _ _ => ?_
    exact Check.total_ite (Check.total_report ..)

theorem total_checkParticipant (map : ContextMap) (r : RelationshipId)
    {participant : Option ContextId} (h : ∀ c ∈ participant, m.Holds c.any) (feature : Feature) :
    (m.checkParticipant map r participant feature).Total := by
  cases participant with
  | none => exact .pure trivial
  | some c =>
    refine Check.total_ite ?_
    exact (finds_context hm (h c rfl)).lift.bind fun _ _ => Check.total_report ..

theorem total_checkExposed (r : RelationshipId) {up : ContextId} (hup : m.Holds up.any)
    {exposed : List AggregateId} (h : ∀ a ∈ exposed, m.Holds a.any) :
    (m.checkExposed r up exposed).Total := by
  refine (finds_contextAggregates hm hup).lift.bind fun _ _ => ?_
  refine Check.total_eachIdx fun a ha i => Check.total_ite ?_
  refine (finds_aggregate hm (h a ha)).lift.bind fun _ _ => ?_
  exact (finds_context hm hup).lift.bind fun _ _ => Check.total_reportAt ..

omit hm in
theorem total_checkRoles (r : RelationshipId) (supply : Supply) : (checkRoles r supply).Total := by
  refine Check.total_ite ?_
  refine Check.finds_ite_bind (Check.total_report ..) fun _ => ?_
  refine Check.finds_ite_bind (Check.total_report ..) fun _ => ?_
  exact Check.total_ite (Check.total_report ..)

theorem total_checkRelationship (map : ContextMap) {r : RelationshipId} (hr : m.Holds r.any) :
    (m.checkRelationship map r).Total := by
  refine (finds_relationship hm hr).lift.bind fun n hn => ?_
  refine (total_checkParticipant hm map r hn.first _).bind fun _ _ => ?_
  refine (total_checkParticipant hm map r hn.second _).bind fun _ _ => ?_
  refine Check.finds_ite_bind (Check.total_report ..) fun _ => ?_
  cases n with
  | symmetric pattern a b => exact .pure trivial
  | upstreamDownstream supply =>
    dsimp only
    cases hup : supply.upstream with
    | none => exact total_checkRoles ..
    | some up =>
      refine (total_checkExposed hm r (hn.first up hup) (hn.exposed supply rfl)).bind fun _ _ => ?_
      exact total_checkRoles ..

theorem total_checkMapType (h : ContextMapId) {map : ContextMap} (hmap : map.InRange m) :
    (m.checkMapType h map).Total := by
  unfold checkMapType
  cases map.type with
  | none => exact .pure trivial
  | some type =>
    cases type with
    | organizational =>
      refine (Lookup.total_any fun c hc => ?_).lift.bind fun _ _ => ?_
      · exact (finds_context hm (hmap.contexts c hc)).bind fun _ _ => .pure trivial
      · exact Check.total_ite (Check.total_report ..)
    | systemLandscape =>
      refine Check.total_eachIdx fun c hc i => ?_
      refine (finds_context hm (hmap.contexts c hc)).lift.bind fun _ _ => ?_
      exact Check.total_ite (Check.total_reportAt ..)

theorem total_declaresUpstream {map : ContextMap} (hmap : map.InRange m) (up : String)
    {owner : ContextId} (howner : m.Holds owner.any) : (m.declaresUpstream map up owner).Total := by
  refine Lookup.total_any fun r hr => ?_
  refine (finds_relationship hm (hmap.relationships r hr)).bind fun n hn => ?_
  split
  · next u d heq =>
    have hp := Relationship.participants_of_upstreamDownstream? heq
    have hu : m.Holds u.any := hn.first u (by rw [hp]; rfl)
    have hd : m.Holds d.any := hn.second d (by rw [hp]; rfl)
    refine (finds_context hm hd).bind fun _ _ => ?_
    refine (finds_context hm howner).bind fun _ _ => ?_
    split
    · exact (finds_context hm hu).bind fun _ _ => .pure trivial
    · exact .pure trivial
  · exact .pure trivial

theorem total_checkMappingOnMap {map : ContextMap} (hmap : map.InRange m) {owner : ContextId}
    (howner : m.Holds owner.any) (entity : ObjectId) {mapping : EntityMapping}
    (hmapping : mapping.InRange m) : (m.checkMappingOnMap map owner entity mapping).Total := by
  refine (Lookup.finds_filter fun c hc => ?_).lift.bind fun mapped hmapped => ?_
  · exact (finds_context hm (hmap.contexts c hc)).bind fun _ _ => .pure trivial
  refine Check.finds_ite_bind (Check.total_report ..) fun _ => ?_
  refine (total_declaresUpstream hm hmap mapping.boundedContext howner).lift.bind fun _ _ => ?_
  refine Check.finds_ite_bind (Check.total_report ..) fun _ => ?_
  refine (Lookup.finds_flatMap fun c hc =>
    finds_contextAggregates hm (hmap.contexts c (hmapped c hc))).lift.bind fun candidates hall => ?_
  refine (Lookup.finds_filter fun a ha => ?_).lift.bind fun aggregates hsome => ?_
  · exact (finds_aggregate hm (hall a ha)).bind fun _ _ => .pure trivial
  refine Check.finds_ite_bind (Check.total_report ..) fun _ => ?_
  cases htarget : mapping.entity with
  | none => exact .pure trivial
  | some target =>
    have ht := hmapping.entity target htarget
    refine (Lookup.total_any fun a ha =>
      total_listsEntity hm (hall a (hsome a ha)) ht).lift.bind fun _ _ => ?_
    refine Check.total_ite ?_
    exact (finds_object hm ht).lift.bind fun _ _ => Check.total_report ..

theorem total_checkMappingsOnMap {map : ContextMap} (hmap : map.InRange m) :
    (m.checkMappingsOnMap map).Total := by
  refine Check.total_each fun c hc => ?_
  have hcontext := hmap.contexts c hc
  refine (finds_contextAggregates hm hcontext).lift.bind fun as has => ?_
  refine Check.total_each fun a ha => ?_
  refine (finds_aggregate hm (has a ha)).lift.bind fun n hn => ?_
  refine Check.total_each fun o ho => ?_
  refine (finds_object hm (hn.objects o ho)).lift.bind fun object hobject => ?_
  cases hmapping : object.mapping? with
  | none => exact .pure trivial
  | some mapping =>
    exact total_checkMappingOnMap hm hmap hcontext o (hobject.mapping mapping hmapping)

theorem total_checkContextMap {h : ContextMapId} (hh : m.Holds h.any) :
    (m.checkContextMap h).Total := by
  refine (finds_contextMap hm hh).lift.bind fun map hmap => ?_
  refine (Check.total_each fun r hr =>
    total_checkRelationship hm map (hmap.relationships r hr)).bind fun _ _ => ?_
  refine (total_checkMapType hm h hmap).bind fun _ _ => ?_
  exact total_checkMappingsOnMap hm hmap

/-! ### Aggregates and entity mappings -/

/-- A reference that is followed leads into the model. -/
theorem finds_referenceStep {current : ObjectId} (hcurrent : m.Holds current.any) {r : ReferenceId}
    (hr : m.Holds r.any) :
    (m.referenceStep current r).Finds fun s => ∀ o, s = .ok o → m.Holds o.any := by
  refine (finds_reference hm hr).bind fun n hn => ?_
  refine (finds_object hm hcurrent).bind fun _ _ => ?_
  split
  · exact .pure (by simp)
  · split
    · exact .pure (by simp)
    · cases htarget : n.target with
      | none => exact .pure (by simp)
      | some target =>
        have ht := hn.target target htarget
        refine (finds_object hm ht).bind fun _ _ => ?_
        split
        · refine .pure ?_
          rintro o ⟨⟩
          exact ht
        · exact .pure (by simp)

theorem finds_walkReferences (node : NodeRef) (index : Nat) {current : ObjectId}
    (hcurrent : m.Holds current.any) {references : List ReferenceId}
    (h : ∀ r ∈ references, m.Holds r.any) :
    (m.walkReferences node index current references).Finds fun o => m.Holds o.any := by
  induction references generalizing index current with
  | nil => exact .pure hcurrent
  | cons r rest ih =>
    have hrest : ∀ s ∈ rest, m.Holds s.any := fun s hs => h s (by simp [hs])
    refine (finds_referenceStep hm hcurrent (h r (by simp))).lift.bind fun s hs => ?_
    cases s with
    | ok target => exact ih (index + 1) (hs target rfl) hrest
    | error problem =>
      exact (Check.total_reportAt ..).bind fun _ _ => ih (index + 1) hcurrent hrest

/-- Aliases stand for objects of the model. -/
theorem finds_checkAliases (entity : ObjectId) {mapped : ObjectId} (hmapped : m.Holds mapped.any)
    (index : Nat) {known : Aliases} (hknown : ∀ p ∈ known, m.Holds p.2.any)
    {declarations : List AliasDeclaration}
    (h : ∀ d ∈ declarations, ∀ r ∈ d.references, m.Holds r.any) :
    (m.checkAliases entity mapped index known declarations).Finds
      fun aliases => ∀ p ∈ aliases, m.Holds p.2.any := by
  induction declarations generalizing index known with
  | nil => exact .pure hknown
  | cons declaration rest ih =>
    rw [checkAliases]
    refine Check.finds_ite_bind (Check.total_report ..) fun _ => ?_
    refine (finds_walkReferences hm _ 0 hmapped (h declaration (by simp))).bind fun o ho => ?_
    refine ih (index + 1) (fun p hp => ?_) fun d hd => h d (by simp [hd])
    rcases List.mem_cons.mp hp with rfl | hp
    · exact ho
    · exact hknown p hp

omit hm in
theorem holds_pathStart {mapped : ObjectId} (hmapped : m.Holds mapped.any) {aliases : Aliases}
    (haliases : ∀ p ∈ aliases, m.Holds p.2.any) {head : AttributePathHead} {start : ObjectId}
    (h : pathStart mapped aliases head = some start) : m.Holds start.any := by
  cases head with
  | root =>
    cases h
    exact hmapped
  | declared name =>
    obtain ⟨p, hp, rfl⟩ := Option.map_eq_some_iff.mp h
    exact haliases p (List.mem_of_find?_eq_some hp)

theorem total_checkAttributePath (node : NodeRef) {mapped : ObjectId}
    (hmapped : m.Holds mapped.any) {aliases : Aliases}
    (haliases : ∀ p ∈ aliases, m.Holds p.2.any) {mapping : EntityAttributeMapping}
    (h : ∀ r ∈ mapping.path.references, m.Holds r.any) :
    (m.checkAttributePath node mapped aliases mapping).Total := by
  unfold checkAttributePath
  cases hstart : pathStart mapped aliases mapping.path.head with
  | none =>
    dsimp only
    split
    · exact (Check.total_report ..).bind fun _ _ => .pure trivial
    · exact .pure trivial
  | some start =>
    refine (finds_walkReferences hm node 0
      (holds_pathStart hmapped haliases hstart) h).bind fun owner howner => ?_
    refine (finds_attributeByName hm howner _).lift.bind fun found hfound => ?_
    cases found with
    | none =>
      refine (finds_object hm howner).lift.bind fun _ _ => ?_
      exact (Check.total_report ..).bind fun _ _ => .pure trivial
    | some a =>
      refine (finds_attributeOf hm (hfound a rfl)).lift.bind fun _ _ => ?_
      exact Check.finds_ite_bind (Check.total_report ..) fun _ => .pure trivial

theorem total_checkAttributeMappings (entity : ObjectId) {mapped : ObjectId}
    (hmapped : m.Holds mapped.any) {aliases : Aliases}
    (haliases : ∀ p ∈ aliases, m.Holds p.2.any) (index : Nat) (names : List String)
    {mappings : List EntityAttributeMapping}
    (h : ∀ a ∈ mappings, ∀ r ∈ a.path.references, m.Holds r.any) :
    (m.checkAttributeMappings entity mapped aliases index names mappings).Total := by
  induction mappings generalizing index names with
  | nil => exact .pure trivial
  | cons mapping rest ih =>
    rw [checkAttributeMappings]
    refine Check.finds_ite_bind (Check.total_report ..) fun _ => ?_
    refine (total_checkAttributePath hm _ hmapped haliases (h mapping (by simp))).bind
      fun _ _ => ?_
    exact (ih (index + 1) _ fun a ha => h a (by simp [ha])).bind fun _ _ => .pure trivial

theorem finds_checkMappedRoot (entity : ObjectId) {mapped : ObjectId}
    (hmapped : m.Holds mapped.any) :
    (m.checkMappedRoot entity mapped).Finds fun key => ∀ k ∈ key, m.Holds k.any := by
  refine (finds_object hm hmapped).lift.bind fun _ _ => ?_
  refine Check.finds_ite_bind (Check.total_report ..) fun _ => ?_
  refine (finds_keyAttribute hm hmapped).lift.bind fun key hkey => ?_
  exact Check.finds_ite_bind (Check.total_report ..) fun _ => .pure hkey

theorem total_checkEntityMapping {entity : ObjectId} (hentity : m.Holds entity.any)
    {mapping : EntityMapping} (hmapping : mapping.InRange m) :
    (m.checkEntityMapping entity mapping).Total := by
  refine (finds_object hm hentity).lift.bind fun _ _ => ?_
  refine Check.finds_ite_bind (Check.total_report ..) fun _ => ?_
  cases hmapped : mapping.entity with
  | none => exact Check.total_report ..
  | some mapped =>
    have h := hmapping.entity mapped hmapped
    refine (finds_checkMappedRoot hm entity h).bind fun key hkey => ?_
    refine (finds_checkAliases hm entity h 0 (by simp) hmapping.aliases).bind
      fun aliases haliases => ?_
    refine (total_checkAttributeMappings hm entity h haliases 0 [] hmapping.attributes).bind
      fun _ _ => ?_
    cases key with
    | none => exact .pure trivial
    | some k =>
      refine Check.total_ite ?_
      exact (finds_attributeOf hm (hkey k rfl)).lift.bind fun _ _ => Check.total_report ..

omit hm in
theorem total_reportIfSeveral (problem : Problem) (feature : Feature) (objects : List ObjectId) :
    (reportIfSeveral problem feature objects).Total :=
  Check.total_ite (Check.total_each fun _ _ => Check.total_report ..)

theorem total_checkAggregate {a : AggregateId} (ha : m.Holds a.any) :
    (m.checkAggregate a).Total := by
  refine (finds_aggregate hm ha).lift.bind fun n hn => ?_
  have hobject := fun o ho => finds_object hm (hn.objects o ho)
  refine Check.Finds.bind (P := fun _ => True) ?_ fun _ _ => ?_
  · refine (Lookup.finds_filter fun o ho => ?_).lift.bind fun _ _ => total_reportIfSeveral ..
    exact (hobject o ho).bind fun _ _ => .pure trivial
  refine Check.Finds.bind (P := fun _ => True) ?_ fun _ _ => ?_
  · refine (Lookup.finds_filter fun o ho => ?_).lift.bind fun _ _ => total_reportIfSeveral ..
    exact (hobject o ho).bind fun _ _ => .pure trivial
  refine Check.total_each fun o ho => ?_
  refine (hobject o ho).lift.bind fun object hobject => ?_
  cases hmapping : object.mapping? with
  | none => exact .pure trivial
  | some mapping =>
    exact total_checkEntityMapping hm (hn.objects o ho) (hobject.mapping mapping hmapping)

/-! ### Invariants -/

theorem total_translationScope {ac : AntiCorruption} (hac : ac.InRange m) :
    (m.translationScope ac).Total := by
  unfold translationScope
  cases ha : ac.aggregate with
  | none => exact .pure trivial
  | some a => exact (total_entityNames hm (hac.aggregate a ha)).bind fun _ _ => .pure trivial

theorem total_checkInvariants (policy : TernaryPolicy) {a : AggregateId} (ha : m.Holds a.any) :
    (m.checkInvariants policy a).Total := by
  refine (finds_aggregate hm ha).lift.bind fun _ _ => ?_
  refine Check.total_each fun index _ => ?_
  refine (finds_aggregate hm ha).lift.bind fun n _ => ?_
  cases n.invariants[index]? with
  | none => exact .pure trivial
  | some invariant =>
    have hsome : ∀ b ∈ some a, m.Holds b.any := by
      rintro _ ⟨⟩
      exact ha
    refine (Env.finds_forAggregate hm hsome policy).lift.bind fun env henv => ?_
    refine (Env.total_infer henv ..).bind fun _ _ => ?_
    exact Check.total_ite (Check.total_report ..)

theorem total_checkTranslationInvariants (policy : TernaryPolicy) {owner : AntiCorruptionId}
    (howner : m.Holds owner.any) : (m.checkTranslationInvariants policy owner).Total := by
  refine (finds_antiCorruption hm howner).lift.bind fun ac _ => ?_
  cases ac.kind with
  | mapping => exact .pure trivial
  | translation =>
    refine Check.total_each fun index _ => ?_
    refine (finds_antiCorruption hm howner).lift.bind fun ac hac => ?_
    cases ac.invariants[index]? with
    | none => exact .pure trivial
    | some invariant =>
      refine (total_translationScope hm hac).lift.bind fun _ _ => ?_
      refine (Env.finds_forAggregate hm hac.aggregate policy).lift.bind fun env henv => ?_
      refine (Env.total_infer henv ..).bind fun _ _ => ?_
      exact Check.total_ite (Check.total_report ..)

/-! ### Uses bindings -/

theorem total_relation (used owner : ContextId) : (m.relation used owner).Total := by
  refine (finds_contextMapOf hm used).bind fun r hr => ?_
  cases r with
  | none => exact .pure trivial
  | some h =>
    refine (finds_contextMap hm (hr h rfl)).bind fun n hn => ?_
    refine (Lookup.finds_map fun r hr =>
      finds_relationship hm (hn.relationships r hr)).bind fun _ _ => ?_
    exact .pure trivial

theorem total_checkUsedContext (entity : ObjectId) {used : ContextId} (hused : m.Holds used.any)
    (owner : ContextId) : (m.checkUsedContext entity used owner).Total := by
  refine (total_relation hm used owner).lift.bind fun _ _ => ?_
  refine Check.finds_ite_lift_bind ?_ fun _ => Check.total_ite (Check.total_report ..)
  exact (finds_context hm hused).lift.bind fun _ _ => Check.total_report ..

theorem total_checkUsedRoot (entity : ObjectId) {a : AggregateId} (ha : m.Holds a.any) :
    (m.checkUsedRoot entity a).Total := by
  refine (finds_rootEntity hm ha).lift.bind fun r hr => ?_
  cases r with
  | none => exact Check.total_report ..
  | some root =>
    refine (finds_keyAttribute hm (hr root rfl)).lift.bind fun _ _ => ?_
    refine Check.total_ite ?_
    exact (finds_object hm (hr root rfl)).lift.bind fun _ _ => Check.total_report ..

theorem total_checkUsedAggregate (entity : ObjectId) {context : Option ContextId}
    (hcontext : ∀ c ∈ context, m.Holds c.any) {a : AggregateId} (ha : m.Holds a.any) :
    (m.checkUsedAggregate entity context a).Total := by
  cases context with
  | none => exact total_checkUsedRoot hm entity ha
  | some c =>
    have hc := hcontext c rfl
    refine (finds_contextAggregates hm hc).lift.bind fun _ _ => ?_
    refine Check.finds_ite_lift_bind ?_ fun _ => total_checkUsedRoot hm entity ha
    exact (finds_context hm hc).lift.bind fun _ _ => Check.total_report ..

omit hm in
theorem total_checkPlain (entity : ObjectId) (valueObject : DomainObject) :
    (checkPlain entity valueObject).Total := by
  refine (total_isTooRich valueObject).lift.bind fun _ _ => ?_
  refine Check.finds_ite_bind (Check.total_report ..) fun _ => ?_
  exact Check.total_ite (Check.total_report ..)

theorem total_listsValueObject {a : AggregateId} (ha : m.Holds a.any) {o : ObjectId}
    (ho : m.Holds o.any) : (m.listsValueObject a o).Total := by
  refine (finds_object hm ho).bind fun _ _ => ?_
  split
  · exact (finds_aggregate hm ha).bind fun _ _ => .pure trivial
  · exact .pure trivial

theorem total_checkUsedValueObject (entity : ObjectId) {aggregate : Option AggregateId}
    (haggregate : ∀ a ∈ aggregate, m.Holds a.any) {o : ObjectId} (ho : m.Holds o.any) :
    (m.checkUsedValueObject entity aggregate o).Total := by
  have hplain := (finds_object hm ho).lift.bind fun n _ => total_checkPlain entity n
  cases aggregate with
  | none => exact hplain
  | some a =>
    have ha := haggregate a rfl
    refine (total_listsValueObject hm ha ho).lift.bind fun _ _ => ?_
    refine Check.finds_ite_lift_bind ?_ fun _ => hplain
    exact (finds_aggregate hm ha).lift.bind fun _ _ => Check.total_report ..

/-- The anti-corruption declaration that a binding names is one of the model. -/
theorem finds_namedAntiCorruption {entity : ObjectId} (hentity : m.Holds entity.any)
    (uses : EntityUses) {owner : Option ContextId} (howner : ∀ c ∈ owner, m.Holds c.any) :
    (m.namedAntiCorruption entity uses owner).Finds fun r => ∀ a ∈ r, m.Holds a.any := by
  unfold namedAntiCorruption
  split
  · next name c _ =>
    refine (finds_antiCorruptionInContext hm (howner c rfl) name).lift.bind fun found hfound => ?_
    refine Check.finds_ite_lift_bind ?_ fun _ => .pure hfound
    exact (finds_object hm hentity).lift.bind fun _ _ => Check.total_report ..
  · exact .pure (by simp)

omit hm in
/-- The target of uses clauses is a node of the model. -/
def UsesTarget.InRange (m : Model) : UsesTarget → Prop
  | .antiCorruption id => m.Holds id.any
  | .valueObject o => m.Holds o.any

omit hm in
theorem inRange_usesTarget {uses : EntityUses} (huses : uses.InRange m)
    {found : Option AntiCorruptionId} (hfound : ∀ a ∈ found, m.Holds a.any) :
    ∀ t ∈ usesTarget uses found, t.InRange m := by
  intro t ht
  unfold usesTarget at ht
  split at ht
  · next ac =>
    cases ht
    exact hfound ac rfl
  · split at ht
    · obtain ⟨o, ho, rfl⟩ := Option.map_eq_some_iff.mp ht
      exact huses.valueObject o ho
    · cases ht

theorem total_usedType {target : UsesTarget} (htarget : target.InRange m) (name : String) :
    (m.usedType target name).Total := by
  cases target with
  | antiCorruption id => exact (finds_antiCorruption hm htarget).bind fun _ _ => .pure trivial
  | valueObject o =>
    refine (finds_object hm htarget).bind fun _ _ => ?_
    refine (finds_attributeByName hm htarget name).bind fun r hr => ?_
    cases r with
    | none => exact .pure trivial
    | some a => exact (finds_attributeOf hm (hr a rfl)).bind fun _ _ => .pure trivial

theorem total_checkUsesClause (binder : String) {target : Option UsesTarget}
    (htarget : ∀ t ∈ target, t.InRange m) {a : AttributeId} (ha : m.Holds a.any)
    (clause : AttributeUses) : (m.checkUsesClause binder target a clause).Total := by
  refine (finds_attributeOf hm ha).lift.bind fun _ _ => ?_
  refine Check.finds_ite_bind (Check.total_report ..) fun _ => ?_
  cases target with
  | none => exact .pure trivial
  | some t =>
    refine (total_usedType hm (htarget t rfl) clause.attributeName).lift.bind fun used _ => ?_
    obtain ⟨owner, type⟩ := used
    cases type with
    | none => exact Check.total_report ..
    | some type => exact Check.total_ite (Check.total_report ..)

theorem finds_usesClauses {o : ObjectId} (ho : m.Holds o.any) :
    (m.usesClauses o).Finds fun clauses => ∀ p ∈ clauses, m.Holds p.1.any := by
  refine (finds_object hm ho).bind fun n hn => ?_
  refine (Lookup.finds_map (P := fun p => m.Holds p.1.any) fun a ha => ?_).bind
    fun attributes hall => .pure fun p hp => ?_
  · exact (finds_attributeOf hm (hn.attributes a ha)).bind fun _ _ => .pure (hn.attributes a ha)
  · obtain ⟨q, hq, h⟩ := List.mem_filterMap.mp hp
    obtain ⟨clause, -, rfl⟩ := Option.map_eq_some_iff.mp h
    exact hall q hq

theorem total_keyTranslation {id : AntiCorruptionId} (hid : m.Holds id.any) :
    (m.keyTranslation id).Total := by
  refine (finds_antiCorruption hm hid).bind fun ac hac => ?_
  cases ha : ac.aggregate with
  | none => exact .pure trivial
  | some a =>
    refine (finds_rootEntity hm (hac.aggregate a ha)).bind fun r hr => ?_
    cases r with
    | none => exact .pure trivial
    | some root =>
      refine (finds_keyAttribute hm (hr root rfl)).bind fun key _ => ?_
      cases key <;> exact .pure trivial

theorem total_checkKeyTranslation (entity : ObjectId) {id : AntiCorruptionId}
    (hid : m.Holds id.any) (used : List String) : (m.checkKeyTranslation entity id used).Total := by
  refine (total_keyTranslation hm hid).lift.bind fun r _ => ?_
  cases r with
  | none => exact .pure trivial
  | some name => exact Check.total_ite (Check.total_report ..)

theorem total_checkUsesClauses {entity : ObjectId} (hentity : m.Holds entity.any)
    (binder : String) {target : Option UsesTarget} (htarget : ∀ t ∈ target, t.InRange m) :
    (m.checkUsesClauses entity binder target).Total := by
  refine (finds_usesClauses hm hentity).lift.bind fun clauses hclauses => ?_
  refine (Check.total_each fun p hp =>
    total_checkUsesClause hm binder htarget (hclauses p hp) p.2).bind fun _ _ => ?_
  split
  · next id => exact total_checkKeyTranslation hm entity (htarget _ rfl) _
  · exact .pure trivial

theorem total_checkNoUsesClauses {entity : ObjectId} (hentity : m.Holds entity.any) :
    (m.checkNoUsesClauses entity).Total := by
  refine (finds_usesClauses hm hentity).lift.bind fun clauses hclauses => ?_
  refine Check.total_each fun p hp => ?_
  refine (finds_attributeOf hm (hclauses p hp)).lift.bind fun _ _ => ?_
  exact (finds_object hm hentity).lift.bind fun _ _ => Check.total_report ..

theorem total_checkBoundContext (entity : ObjectId) (object : DomainObject) {uses : EntityUses}
    (huses : uses.InRange m) (owner : Option ContextId) :
    (m.checkBoundContext entity object uses owner).Total := by
  unfold checkBoundContext
  split
  · next used c hused =>
    exact total_checkUsedContext hm entity (huses.boundedContext used hused) c
  · exact .pure trivial
  · exact Check.total_report ..

theorem total_checkBoundAggregate (entity : ObjectId) (object : DomainObject) {uses : EntityUses}
    (huses : uses.InRange m) : (m.checkBoundAggregate entity object uses).Total := by
  unfold checkBoundAggregate
  split
  · next a ha =>
    exact total_checkUsedAggregate hm entity huses.boundedContext (huses.aggregate a ha)
  · exact Check.total_report ..

theorem total_checkBoundValueObject (entity : ObjectId) (object : DomainObject)
    {uses : EntityUses} (huses : uses.InRange m) :
    (m.checkBoundValueObject entity object uses).Total := by
  unfold checkBoundValueObject
  split
  · next o ho => exact total_checkUsedValueObject hm entity huses.aggregate (huses.valueObject o ho)
  · exact Check.total_report ..

theorem total_checkUsesBinding {entity : ObjectId} (hentity : m.Holds entity.any)
    {uses : EntityUses} (huses : uses.InRange m) : (m.checkUsesBinding entity uses).Total := by
  refine (finds_object hm hentity).lift.bind fun object _ => ?_
  refine Check.finds_ite_bind (Check.total_report ..) fun _ => ?_
  refine (finds_contextOfObject hm hentity).lift.bind fun owner howner => ?_
  refine (total_checkBoundContext hm entity object huses owner).bind fun _ _ => ?_
  refine (total_checkBoundAggregate hm entity object huses).bind fun _ _ => ?_
  refine (total_checkBoundValueObject hm entity object huses).bind fun _ _ => ?_
  refine (finds_namedAntiCorruption hm hentity uses howner).bind fun found hfound => ?_
  exact total_checkUsesClauses hm hentity uses.binder (inRange_usesTarget huses hfound)

theorem total_checkEntity {o : ObjectId} (ho : m.Holds o.any) : (m.checkEntity o).Total := by
  refine (finds_object hm ho).lift.bind fun n hn => ?_
  cases hdata : n.kind.entity? with
  | none => exact .pure trivial
  | some data =>
    dsimp only
    cases huses : data.uses with
    | none => exact total_checkNoUsesClauses hm ho
    | some uses =>
      refine total_checkUsesBinding hm ho (hn.uses uses ?_)
      rw [DomainObject.uses?, hdata]
      exact huses

/-! ### Constructors and operations -/

theorem total_acceptsParameter (kind : CallableKind) {a : AggregateId} (ha : m.Holds a.any)
    {p : Parameter} (hp : p.type.InRange m) : (m.acceptsParameter kind a p).Total := by
  unfold acceptsParameter
  split
  · exact .pure trivial
  · exact .pure trivial
  · next o ho =>
    split
    · exact .pure trivial
    · refine (finds_aggregate hm ha).bind fun _ _ => ?_
      split
      · exact .pure trivial
      · cases kind with
        | operation => exact .pure trivial
        | constructor => exact (finds_object hm (hp o ho)).bind fun _ _ => .pure trivial

theorem total_isRootParameter {a : AggregateId} (ha : m.Holds a.any) (p : Parameter) :
    (m.isRootParameter a p).Total := by
  unfold isRootParameter
  split
  · split
    · exact .pure trivial
    · exact (finds_rootEntity hm ha).bind fun _ _ => .pure trivial
  · exact .pure trivial

theorem total_checkParameters (callable : Callable) {object : DomainObject}
    (hobject : object.InRange m) {parameters : List Parameter}
    (h : ∀ p ∈ parameters, p.type.InRange m) :
    (m.checkParameters callable object parameters).Total := by
  have ha := hobject.aggregate
  refine (Check.total_eachIdx fun p hp i => ?_).bind fun _ _ => ?_
  · refine (total_acceptsParameter hm callable.kind ha (h p hp)).lift.bind fun _ _ => ?_
    exact Check.total_ite (Check.total_report ..)
  · refine Check.total_ite ?_
    refine (Lookup.total_any fun p _ => total_isRootParameter hm ha p).lift.bind fun _ _ => ?_
    exact Check.total_ite (Check.total_report ..)

omit hm in
theorem total_isOneStepPath (name property : String) (e : Expr) :
    (isOneStepPath name property e).Total := by
  unfold isOneStepPath
  split
  · next head properties methods _ =>
    split
    · next h =>
      rw [Bool.and_eq_true, beq_iff_eq (a := properties.length)] at h
      have hzero : 0 < properties.length := by omega
      exact (Lookup.finds_item hzero).bind fun _ _ => .pure trivial
    · exact .pure trivial
  · exact .pure trivial

theorem total_checkKeyAssigned (callable : Callable) {object : DomainObject}
    (hobject : object.InRange m) (parameters : List Parameter) (assignments : List Assigned) :
    (m.checkKeyAssigned callable object parameters assignments).Total := by
  have ha := hobject.aggregate
  unfold checkKeyAssigned
  split
  · exact .pure trivial
  · refine (finds_rootKey hm ha).lift.bind fun r hr => ?_
    cases r with
    | none => exact .pure trivial
    | some p =>
      obtain ⟨root, key⟩ := p
      have hkey := (hr _ rfl).2
      refine (Lookup.finds_find? fun p _ => total_isRootParameter hm ha p).lift.bind fun r _ => ?_
      cases r with
      | none => exact .pure trivial
      | some p =>
        refine (finds_attributeOf hm hkey).lift.bind fun _ _ => ?_
        refine (Lookup.total_any fun a _ => total_isOneStepPath ..).lift.bind fun _ _ => ?_
        exact Check.total_ite (Check.total_report ..)

theorem total_checkCoverage (callable : Callable) {o : ObjectId} (ho : m.Holds o.any)
    (assignments : List Assigned) : (m.checkCoverage callable o assignments).Total := by
  refine (Check.total_each fun _ _ => Check.total_report ..).bind fun _ _ => ?_
  refine (finds_object hm ho).lift.bind fun n hn => ?_
  refine (Check.total_each fun a ha => ?_).bind fun _ _ => ?_
  · refine (finds_attributeOf hm (hn.attributes a ha)).lift.bind fun _ _ => ?_
    exact Check.total_ite (Check.total_report ..)
  · refine Check.total_each fun a _ => ?_
    refine (finds_attributeByName hm ho a.attributeName).lift.bind fun _ _ => ?_
    exact Check.total_ite (Check.total_report ..)

theorem total_parameterScope {parameters : List Parameter}
    (h : ∀ p ∈ parameters, p.type.InRange m) : (m.parameterScope parameters).Total := by
  refine (Lookup.total_map fun p hp => ?_).bind fun _ _ => .pure trivial
  exact (total_complexType hm (h p hp)).bind fun _ _ => .pure trivial

theorem total_expectedType {o : ObjectId} (ho : m.Holds o.any) (name : String) :
    (m.expectedType o name).Total := by
  refine (finds_attributeByName hm ho name).bind fun r hr => ?_
  cases r with
  | none => exact .pure trivial
  | some a => exact (finds_attributeOf hm (hr a rfl)).bind fun _ _ => .pure trivial

theorem total_checkAssignmentTypes (policy : TernaryPolicy) (callable : Callable) {o : ObjectId}
    (ho : m.Holds o.any) {parameters : List Parameter} (h : ∀ p ∈ parameters, p.type.InRange m)
    (assignments : List Assigned) :
    (m.checkAssignmentTypes policy callable o parameters assignments).Total := by
  refine (total_parameterScope hm h).lift.bind fun _ _ => ?_
  refine (finds_object hm ho).lift.bind fun n hn => ?_
  have hsome : ∀ a ∈ some n.aggregate, m.Holds a.any := by
    rintro _ ⟨⟩
    exact hn.aggregate
  refine (Env.finds_forAggregate hm hsome policy).lift.bind fun env henv => ?_
  refine Check.total_each fun a _ => ?_
  refine (total_expectedType hm ho a.attributeName).lift.bind fun r _ => ?_
  refine (Env.total_infer henv ..).bind fun _ _ => ?_
  cases r with
  | none => exact .pure trivial
  | some t => exact Check.total_ite (Check.total_report ..)

theorem total_checkBody (policy : TernaryPolicy) (callable : Callable) {o : ObjectId}
    (ho : m.Holds o.any) {parameters : List Parameter} (h : ∀ p ∈ parameters, p.type.InRange m)
    (assignments : List Assigned) :
    (m.checkBody policy callable o parameters assignments).Total := by
  refine (finds_object hm ho).lift.bind fun n hn => ?_
  refine (total_checkKeyAssigned hm callable hn parameters assignments).bind fun _ _ => ?_
  refine (total_checkCoverage hm callable ho assignments).bind fun _ _ => ?_
  exact total_checkAssignmentTypes hm policy callable ho h assignments

omit hm in
theorem total_checkCommands (callable : Callable) (commands : List Command) :
    (checkCommands callable commands).Total := by
  refine Check.total_eachIdx fun command _ i => ?_
  cases command with
  | assignment left right => exact Check.total_ite (Check.total_report ..)
  | other text => exact Check.total_reportAt ..

theorem total_checkConstructor (policy : TernaryPolicy) {o : ObjectId} (ho : m.Holds o.any) :
    (m.checkConstructor policy o).Total := by
  refine (finds_object hm ho).lift.bind fun n hn => ?_
  cases hc : n.constructor with
  | none => exact .pure trivial
  | some c =>
    have h := (hn.constructor c hc).parameters
    refine (total_checkParameters hm (.constructor o) hn h).bind fun _ _ => ?_
    exact total_checkBody hm policy (.constructor o) ho h c.assigned

theorem total_checkOperation (policy : TernaryPolicy) {o : ObjectId} (ho : m.Holds o.any)
    (index : Nat) : (m.checkOperation policy o index).Total := by
  refine (finds_object hm ho).lift.bind fun n hn => ?_
  cases hp : n.operations[index]? with
  | none => exact .pure trivial
  | some operation =>
    have h := (hn.operations operation (List.mem_of_getElem? hp)).parameters
    refine Check.total_ite ?_
    refine (total_checkParameters hm (.operation o index) hn h).bind fun _ _ => ?_
    refine (total_checkCommands (.operation o index) operation.commands).bind fun _ _ => ?_
    exact total_checkBody hm policy (.operation o index) ho h operation.assigned

theorem total_checkOperations (policy : TernaryPolicy) {o : ObjectId} (ho : m.Holds o.any) :
    (m.checkOperations policy o).Total := by
  refine (finds_object hm ho).lift.bind fun _ _ => ?_
  exact Check.total_each fun index _ => total_checkOperation hm policy ho index

/-! ### Anti-corruption declarations -/

theorem total_isUpstreamContext (mapped owner : ContextId) :
    (m.isUpstreamContext mapped owner).Total := by
  refine (finds_contextMapOf hm mapped).bind fun r hr => ?_
  cases r with
  | none => exact .pure trivial
  | some h => exact total_isUpstreamOf hm (hr h rfl) mapped owner

theorem total_checkMappedContext (id : AntiCorruptionId) {ac : AntiCorruption}
    (hac : ac.InRange m) : (m.checkMappedContext id ac).Total := by
  unfold checkMappedContext
  cases hcontext : ac.boundedContext with
  | none => exact Check.total_report ..
  | some mapped =>
    have hmapped := hac.boundedContext mapped hcontext
    refine (total_isUpstreamContext hm mapped ac.owner).lift.bind fun _ _ => ?_
    refine Check.finds_ite_lift_bind ?_ fun _ => ?_
    · exact (finds_context hm hmapped).lift.bind fun _ _ => Check.total_report ..
    · cases ha : ac.aggregate with
      | none => exact .pure trivial
      | some a =>
        refine (finds_contextAggregates hm hmapped).lift.bind fun _ _ => ?_
        refine Check.total_ite ?_
        exact (finds_aggregate hm (hac.aggregate a ha)).lift.bind fun _ _ => Check.total_report ..

theorem total_checkTranslatedEntity (node : NodeRef) {a : AggregateId} (ha : m.Holds a.any)
    {entity : ObjectId} (hentity : m.Holds entity.any) :
    (m.checkTranslatedEntity node a entity).Total := by
  refine (total_listsEntity hm ha hentity).lift.bind fun _ _ => ?_
  refine Check.total_ite ?_
  exact (finds_object hm hentity).lift.bind fun _ _ => Check.total_report ..

theorem total_checkTranslation (kind : AntiCorruptionKind) (node : NodeRef) {a : AggregateId}
    (ha : m.Holds a.any) {t : AttributeTranslation} (hentity : ∀ o ∈ t.entity, m.Holds o.any)
    (hattribute : ∀ b ∈ t.entityAttribute, m.Holds b.any) :
    (m.checkTranslation kind node a t).Total := by
  unfold checkTranslation
  split
  · next entity linked he hl =>
    have ho := hentity entity he
    refine (total_checkTranslatedEntity hm node ha ho).bind fun _ _ => ?_
    refine (finds_attributeOf hm (hattribute linked hl)).lift.bind fun _ _ => ?_
    refine (finds_attributeByName hm ho _).lift.bind fun r hr => ?_
    cases r with
    | none => exact (Check.total_report ..).bind fun _ _ => .pure trivial
    | some resolved =>
      refine (finds_attributeOf hm (hr resolved rfl)).lift.bind fun _ _ => ?_
      exact Check.finds_ite_bind (Check.total_report ..) fun _ => .pure trivial
  · exact (Check.total_report ..).bind fun _ _ => .pure trivial

theorem total_checkTranslations (id : AntiCorruptionId) (kind : AntiCorruptionKind)
    {a : AggregateId} (ha : m.Holds a.any) (index : Nat) (names : List String)
    {translations : List AttributeTranslation}
    (hentity : ∀ t ∈ translations, ∀ o ∈ t.entity, m.Holds o.any)
    (hattribute : ∀ t ∈ translations, ∀ b ∈ t.entityAttribute, m.Holds b.any) :
    (m.checkTranslations id kind a index names translations).Total := by
  induction translations generalizing index names with
  | nil => exact .pure trivial
  | cons t rest ih =>
    rw [checkTranslations]
    refine Check.finds_ite_bind (Check.total_report ..) fun _ => ?_
    refine (total_checkTranslation hm kind _ ha (hentity t (by simp))
      (hattribute t (by simp))).bind fun _ _ => ?_
    refine (ih (index + 1) _ (fun s hs => hentity s (by simp [hs]))
      fun s hs => hattribute s (by simp [hs])).bind fun _ _ => ?_
    exact .pure trivial

omit hm in
theorem total_checkInvariantNames (id : AntiCorruptionId) (index : Nat) (names : List String)
    (invariants : List Invariant) : (checkInvariantNames id index names invariants).Total := by
  induction invariants generalizing index names with
  | nil => exact .pure trivial
  | cons i rest ih =>
    rw [checkInvariantNames]
    exact Check.finds_ite_bind (Check.total_report ..) fun _ => ih (index + 1) _

theorem total_checkAntiCorruption {id : AntiCorruptionId} (hid : m.Holds id.any) :
    (m.checkAntiCorruption id).Total := by
  refine (finds_antiCorruption hm hid).lift.bind fun ac hac => ?_
  refine (total_checkMappedContext hm id hac).bind fun _ _ => ?_
  cases hsome : ac.aggregate with
  | none => exact Check.total_report ..
  | some a =>
    have ha := hac.aggregate a hsome
    refine (finds_rootKey hm ha).lift.bind fun _ _ => ?_
    refine (total_checkTranslations hm id ac.kind ha 0 [] hac.entities
      hac.entityAttributes).bind fun _ _ => ?_
    refine Check.finds_ite_lift_bind ?_ fun _ => Check.total_ite (total_checkInvariantNames ..)
    exact (finds_aggregate hm ha).lift.bind fun _ _ => Check.total_report ..

end Model

end DomainModel
