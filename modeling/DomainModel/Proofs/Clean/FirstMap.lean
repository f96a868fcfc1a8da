import DomainModel.Proofs.Clean.Basic
import DomainModel.Proofs.Clean.Navigation
import DomainModel.Proofs.Totality.Links
import DomainModel.Rules.AntiCorruption
import DomainModel.Rules.UsesBinding

/-! # The map that decides

An anti-corruption declaration and a uses binding are about another context, and a context map
decides whether that context is upstream of the owning one, or related to it at all. Both rules ask
the first map that lists the other context (`reports_iff_firstMapDeclares`). Where the contexts are
on several maps, this need not be the map of the owning context. -/

namespace DomainModel.Model

open Check

variable (m : Model)

/-- The first map that lists the context has a relationship with the property. -/
def FirstMapDeclares (c : ContextId) (P : Relationship → Prop) : Prop :=
  ∃ h r, (m.contextMapOf c).value = some h ∧ r ∈ (m.contextMap h).value.relationships ∧
    P (m.relationship r).value

variable {m}

/-- A context on a single map is looked up on that map. -/
theorem firstMapDeclares_iff {c : ContextId} {P : Relationship → Prop} {h : ContextMapId}
    (hh : h ∈ m.contextMapIds)
    (hlists : ∀ k ∈ m.contextMapIds, c ∈ (m.contextMap k).value.contexts ↔ k = h) :
    m.FirstMapDeclares c P ↔
      ∃ r ∈ (m.contextMap h).value.relationships, P (m.relationship r).value := by
  have hfirst : (m.contextMapOf c).value = some h := by
    rw [value_contextMapOf]
    cases hfind : m.contextMapIds.find? fun k => (m.contextMap k).value.contexts.contains c with
    | none =>
      have hmiss := List.find?_eq_none.mp hfind h hh
      simp [(hlists h hh).mpr rfl] at hmiss
    | some k =>
      have hk := (hlists k (List.mem_of_find?_eq_some hfind)).mp (by
        simpa using List.find?_some hfind)
      rw [hk]
  simp [FirstMapDeclares, hfirst]

/-! ### Anti-corruption declarations -/

theorem isUpstreamContext_iff (mapped owner : ContextId) :
    (m.isUpstreamContext mapped owner).value = true ↔ m.FirstMapDeclares mapped
      fun r => r.upstreamDownstream? = some (some mapped, some owner) := by
  unfold isUpstreamContext FirstMapDeclares
  cases h : (m.contextMapOf mapped).value with
  | none => simp [h]
  | some map => simp [h, isUpstreamOf_iff]

section

variable {name : String}

theorem avoids_checkTranslation (kind : AntiCorruptionKind) (node : NodeRef) (a : AggregateId)
    (t : AttributeTranslation) :
    (m.checkTranslation kind node a t).Avoids (· = .contextNotUpstream name) := by
  unfold checkTranslation checkTranslatedEntity
  split
  · refine avoids_bind.mpr ⟨by simp [avoids_ite, avoids_lift_bind], ?_⟩
    rw [avoids_lift_bind, avoids_lift_bind]
    split
    · simp
    · rw [avoids_lift_bind, avoids_ite_bind]
      simp
  · simp

theorem avoids_checkTranslations (id : AntiCorruptionId) (kind : AntiCorruptionKind)
    (a : AggregateId) (index : Nat) (names : List String) (ts : List AttributeTranslation) :
    (m.checkTranslations id kind a index names ts).Avoids (· = .contextNotUpstream name) := by
  induction ts generalizing index names with
  | nil => simp [checkTranslations]
  | cons t ts ih =>
    rw [checkTranslations, avoids_ite_bind, avoids_bind, avoids_bind]
    exact ⟨by simp, avoids_checkTranslation _ _ _ _, ih _ _, avoids_pure⟩

theorem avoids_checkInvariantNames (id : AntiCorruptionId) (index : Nat) (names : List String)
    (is : List Invariant) :
    (checkInvariantNames id index names is).Avoids (· = .contextNotUpstream name) := by
  induction is generalizing index names with
  | nil => simp [checkInvariantNames]
  | cons i is ih =>
    rw [checkInvariantNames, avoids_ite_bind]
    exact ⟨by simp, ih _ _⟩

/-- Only the check of the mapped context says that a context is not upstream. -/
theorem avoids_checkAntiCorruption (id : AntiCorruptionId) :
    (m.checkAntiCorruption id).Avoids (· = .contextNotUpstream name) ↔
      (m.checkMappedContext id (m.antiCorruption id).value).Avoids
        (· = .contextNotUpstream name) := by
  rw [checkAntiCorruption, avoids_lift_bind, avoids_bind]
  refine and_iff_left ?_
  split
  · simp
  · refine avoids_lift_bind.mpr (avoids_bind.mpr ⟨avoids_checkTranslations _ _ _ _ _ _, ?_⟩)
    refine avoids_ite_lift_bind.mpr ⟨by simp, avoids_ite.mpr fun _ => ?_⟩
    exact avoids_checkInvariantNames _ _ _ _

end

/-- A declaration is told that the mapped context is not upstream, unless the first map that lists
the mapped context puts it upstream of the owning one. -/
theorem reports_contextNotUpstream {id : AntiCorruptionId} {c : ContextId}
    (hc : (m.antiCorruption id).value.boundedContext = some c) :
    (m.checkAntiCorruption id).Reports (.contextNotUpstream (m.context c).value.name) ↔
      ¬m.FirstMapDeclares c fun r =>
        r.upstreamDownstream? = some (some c, some (m.antiCorruption id).value.owner) := by
  rw [reports_iff, avoids_checkAntiCorruption, ← isUpstreamContext_iff, not_iff_not]
  simp only [checkMappedContext, hc, avoids_lift_bind, avoids_ite_lift_bind, avoids_report,
    not_true, imp_false, Bool.not_eq_true', Bool.not_eq_false]
  refine and_iff_left ?_
  split
  · rw [avoids_lift_bind, avoids_ite]
    simp [avoids_lift_bind]
  · simp

/-! ### Uses bindings -/

theorem relationOf_related (used owner : ContextId) (r : Relationship) :
    (relationOf used owner r).related = true ↔
      r.participants = (some used, some owner) ∨ r.participants = (some owner, some used) := by
  cases r <;> simp [relationOf, Relationship.participants]

theorem relation_related (used owner : ContextId) :
    (m.relation used owner).value.related = true ↔ m.FirstMapDeclares used fun r =>
      r.participants = (some used, some owner) ∨ r.participants = (some owner, some used) := by
  unfold relation FirstMapDeclares
  cases h : (m.contextMapOf used).value with
  | none => simp [h]
  | some map => simp [h, relationOf_related]

theorem avoids_checkUsedRoot (o : ObjectId) (a : AggregateId) :
    (m.checkUsedRoot o a).Avoids (· = .contextsUnrelated) := by
  rw [checkUsedRoot, avoids_lift_bind]
  split
  · simp
  · simp [avoids_lift_bind, avoids_ite]

theorem avoids_checkBoundAggregate (entity : ObjectId) (object : DomainObject) (uses : EntityUses) :
    (m.checkBoundAggregate entity object uses).Avoids (· = .contextsUnrelated) := by
  unfold checkBoundAggregate checkUsedAggregate
  split
  · split
    · rw [avoids_lift_bind, avoids_ite_lift_bind]
      exact ⟨by simp, avoids_checkUsedRoot _ _⟩
    · exact avoids_checkUsedRoot _ _
  · simp

theorem avoids_checkPlain (entity : ObjectId) (valueObject : DomainObject) :
    (checkPlain entity valueObject).Avoids (· = .contextsUnrelated) := by
  rw [checkPlain, avoids_lift_bind, avoids_ite_bind, avoids_ite]
  simp

theorem avoids_checkBoundValueObject (entity : ObjectId) (object : DomainObject)
    (uses : EntityUses) :
    (m.checkBoundValueObject entity object uses).Avoids (· = .contextsUnrelated) := by
  unfold checkBoundValueObject checkUsedValueObject
  split
  · split
    · rw [avoids_lift_bind, avoids_ite_lift_bind]
      exact ⟨by simp, avoids_lift_bind.mpr (avoids_checkPlain _ _)⟩
    · exact avoids_lift_bind.mpr (avoids_checkPlain _ _)
  · simp

theorem avoids_namedAntiCorruption (entity : ObjectId) (uses : EntityUses)
    (owner : Option ContextId) :
    (m.namedAntiCorruption entity uses owner).Avoids (· = .contextsUnrelated) := by
  unfold namedAntiCorruption
  split
  · rw [avoids_lift_bind, avoids_ite_lift_bind]
    simp
  · simp

theorem avoids_checkUsesClause (binder : String) (target : Option UsesTarget) (a : AttributeId)
    (clause : AttributeUses) :
    (m.checkUsesClause binder target a clause).Avoids (· = .contextsUnrelated) := by
  rw [checkUsesClause, avoids_lift_bind, avoids_ite_bind]
  refine ⟨by simp, ?_⟩
  split
  · simp
  · rw [avoids_lift_bind]
    split
    · simp
    · rw [avoids_ite]
      simp

theorem avoids_checkUsesClauses (entity : ObjectId) (binder : String) (target : Option UsesTarget) :
    (m.checkUsesClauses entity binder target).Avoids (· = .contextsUnrelated) := by
  rw [checkUsesClauses, avoids_lift_bind, avoids_bind, avoids_each]
  refine ⟨fun p _ => avoids_checkUsesClause _ _ _ _, ?_⟩
  split
  · rw [checkKeyTranslation, avoids_lift_bind]
    split
    · simp
    · simp [avoids_ite]
  · simp

/-- Only the check of the used context says that the contexts are unrelated. -/
theorem avoids_checkUsesBinding (entity : ObjectId) (uses : EntityUses) :
    (m.checkUsesBinding entity uses).Avoids (· = .contextsUnrelated) ↔
      (m.checkBoundContext entity (m.object entity).value uses
        (m.contextOfObject entity).value).Avoids (· = .contextsUnrelated) := by
  rw [checkUsesBinding, avoids_lift_bind, avoids_ite_bind, avoids_lift_bind, avoids_bind,
    avoids_bind, avoids_bind, avoids_bind]
  constructor
  · rintro ⟨-, h, -⟩
    exact h
  · intro h
    exact ⟨by simp, h, avoids_checkBoundAggregate _ _ _, avoids_checkBoundValueObject _ _ _,
      avoids_namedAntiCorruption _ _ _, avoids_checkUsesClauses _ _ _⟩

/-- An entity with a uses binding is told that the contexts are unrelated, unless the first map that
lists the used context relates it to the owning one, in whatever direction. -/
theorem reports_contextsUnrelated {o : ObjectId} {uses : EntityUses} {c owner : ContextId}
    (huses : (m.object o).value.uses? = some uses) (hc : uses.boundedContext = some c)
    (howner : (m.contextOfObject o).value = some owner) :
    (m.checkEntity o).Reports .contextsUnrelated ↔ ¬m.FirstMapDeclares c fun r =>
      r.participants = (some c, some owner) ∨ r.participants = (some owner, some c) := by
  obtain ⟨data, hdata, hdatauses⟩ := Option.bind_eq_some_iff.mp huses
  rw [reports_iff, ← relation_related, not_iff_not]
  simp only [checkEntity, avoids_lift_bind, hdata, hdatauses, avoids_checkUsesBinding,
    checkBoundContext, hc, howner, checkUsedContext, avoids_ite_lift_bind, avoids_ite]
  simp

/-! ### Which map decides -/

variable (m) in
/-- **The first map that lists the other context decides,** whatever the map of the owning context
declares: for declarations whether that context is upstream, for uses bindings whether it is related
to the owning one. If a single map lists the other context, it is that map. -/
theorem reports_iff_firstMapDeclares :
    (∀ id c, (m.antiCorruption id).value.boundedContext = some c →
      ((m.checkAntiCorruption id).Reports (.contextNotUpstream (m.context c).value.name) ↔
        ¬m.FirstMapDeclares c fun r =>
          r.upstreamDownstream? = some (some c, some (m.antiCorruption id).value.owner))) ∧
    (∀ o uses c owner, (m.object o).value.uses? = some uses → uses.boundedContext = some c →
      (m.contextOfObject o).value = some owner →
      ((m.checkEntity o).Reports .contextsUnrelated ↔ ¬m.FirstMapDeclares c fun r =>
        r.participants = (some c, some owner) ∨ r.participants = (some owner, some c))) ∧
    ∀ c, ∀ h ∈ m.contextMapIds,
      (∀ k ∈ m.contextMapIds, c ∈ (m.contextMap k).value.contexts ↔ k = h) →
      ∀ P, m.FirstMapDeclares c P ↔
        ∃ r ∈ (m.contextMap h).value.relationships, P (m.relationship r).value :=
  ⟨fun _ _ hc => reports_contextNotUpstream hc,
    fun _ _ _ _ huses hc howner => reports_contextsUnrelated huses hc howner,
    fun _ _ hh hlists _ => firstMapDeclares_iff hh hlists⟩

/-- Sales translates the clients of CRM, and its customers use an address of CRM. The landscape puts
CRM upstream of Sales; the maps given as `others` come before it and declare nothing. -/
def mappedSales (others : List ContextMap) : Model :=
  { Model.empty with
    contexts := [⟨"CRM", .feature, [⟨0⟩], [], [], [], none⟩,
      ⟨"Sales", .feature, [⟨1⟩], [], [⟨0⟩], [], none⟩]
    aggregates := [⟨"Clients", some ⟨0⟩, [⟨0⟩, ⟨1⟩], []⟩, ⟨"Customers", some ⟨1⟩, [⟨2⟩], []⟩]
    objects := [⟨"Client", ⟨0⟩, .entity ⟨none, none⟩, true, [⟨0⟩], [], none, none, []⟩,
      ⟨"Address", ⟨0⟩, .valueObject, false, [⟨1⟩], [],
        some ⟨[⟨"client", ⟨.none, .domainObject (some ⟨0⟩)⟩⟩],
          [⟨"owner", ⟨⟨0⟩, .path (.variable "client") ["clientId"] []⟩⟩]⟩, none, []⟩,
      ⟨"Customer", ⟨1⟩,
        .entity ⟨none, some ⟨some ⟨0⟩, some ⟨0⟩, some ⟨1⟩, none, "address"⟩⟩, false, [], [],
        none, none, []⟩]
    attributes := [⟨"clientId", "String", ⟨0⟩, true, none⟩, ⟨"owner", "String", ⟨1⟩, false, none⟩]
    antiCorruptions := [⟨"ClientAcl", .translation, ⟨1⟩, some ⟨0⟩, some ⟨0⟩,
      [⟨"client", "String", some ⟨0⟩, some ⟨0⟩, none⟩], []⟩]
    contextMaps := others ++ [⟨"Landscape", none, [⟨0⟩, ⟨1⟩], [⟨0⟩]⟩]
    relationships := [.upstreamDownstream ⟨false, some ⟨0⟩, some ⟨1⟩, [], [], []⟩] }

theorem reports_iff_firstMapDeclares_landscape :
    let m := mappedSales []
    ((m.checkAntiCorruption ⟨0⟩).Reports (.contextNotUpstream "CRM") ↔
      ¬m.FirstMapDeclares ⟨0⟩ fun r => r.upstreamDownstream? = some (some ⟨0⟩, some ⟨1⟩)) ∧
    ((m.checkEntity ⟨2⟩).Reports .contextsUnrelated ↔ ¬m.FirstMapDeclares ⟨0⟩ fun r =>
      r.participants = (some ⟨0⟩, some ⟨1⟩) ∨ r.participants = (some ⟨1⟩, some ⟨0⟩)) ∧
    ∀ P, m.FirstMapDeclares ⟨0⟩ P ↔
      ∃ r ∈ (m.contextMap ⟨0⟩).value.relationships, P (m.relationship r).value := by
  intro m
  obtain ⟨hanti, huses, hsingle⟩ := m.reports_iff_firstMapDeclares
  exact ⟨hanti ⟨0⟩ ⟨0⟩ rfl, huses ⟨2⟩ _ ⟨0⟩ ⟨1⟩ rfl rfl rfl, hsingle ⟨0⟩ ⟨0⟩ (by decide) (by decide)⟩

/-- **The map of the owning context may be passed over:** if another map that lists CRM comes first,
Sales is told that CRM is not upstream and not related, although the only map of Sales puts it
upstream. -/
theorem owner_map_passed_over :
    let m := mappedSales [⟨"Archive", none, [⟨0⟩], []⟩]
    m.InRange ∧
      (m.contextMapIds.filter fun h => ⟨1⟩ ∈ (m.contextMap h).value.contexts) = [⟨1⟩] ∧
      (m.isUpstreamOf ⟨1⟩ ⟨0⟩ ⟨1⟩).value = true ∧
      (m.checkAntiCorruption ⟨0⟩).Reports (.contextNotUpstream "CRM") ∧
      (m.checkEntity ⟨2⟩).Reports .contextsUnrelated :=
  ⟨linked_iff_inRange.mp (by decide), by decide, by decide, by decide, by decide⟩

end DomainModel.Model
