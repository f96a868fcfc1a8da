import DomainModel.Proofs.Clean.Analysis
import DomainModel.Proofs.Clean.Names

/-! # Clean entity mappings

Two rules look at the mapping of an entity. The aggregate of the entity asks for a root entity with a
key (`mapsRoot_of_clean`); every map with a context that lists the aggregate asks for that root in an
aggregate of an upstream context, and finds both by name (`mapsAcross_of_clean`). Distinct names make
the upstream context of the relationship the one that lists the aggregate.

A map looks down from its contexts. An aggregate that names a context which is on no map, or which
does not list the aggregate, is not looked at. -/

namespace DomainModel.Model

open Check

variable {m : Model}

/-! ### What the rules ask for -/

/-- The mapping of the entity leads to a root entity with a key, and the entity is no root itself. -/
structure MapsRoot (m : Model) (entity : ObjectId) (mapping : EntityMapping) (root : ObjectId) :
    Prop where
  not_root : (m.object entity).value.aggregateRoot = false
  entity_eq : mapping.entity = some root
  isRootEntity : (m.object root).value.isRootEntity = true
  key : ∃ key, (m.keyAttribute root).value = some key

theorem avoids_checkMappedRoot {P : Problem → Prop} (hroot : ∀ name, P (.mappedEntityNotRoot name))
    (hkey : ∀ name, P (.rootWithoutKey name)) {entity root : ObjectId} :
    (m.checkMappedRoot entity root).Avoids P ↔
      (m.object root).value.isRootEntity = true ∧ ∃ key, (m.keyAttribute root).value = some key := by
  simp only [checkMappedRoot, avoids_bind, avoids_lift, avoids_ite_bind, value_lift, avoids_report,
    avoids_pure, hroot, hkey, not_true, imp_false, true_and, and_true, Bool.not_eq_true',
    Bool.not_eq_false, Option.isNone_iff_eq_none]
  exact and_congr_right fun _ => Option.ne_none_iff_exists'

theorem mapsRoot_of_checkEntityMapping {entity : ObjectId} {mapping : EntityMapping}
    (h : (m.checkEntityMapping entity mapping).Avoids Problem.IsError) :
    ∃ root, m.MapsRoot entity mapping root := by
  simp only [checkEntityMapping, avoids_lift_bind, avoids_ite_bind, avoids_report] at h
  obtain ⟨hroot, h⟩ := h
  cases hentity : mapping.entity with
  | none => simp [hentity] at h
  | some root =>
    rw [hentity, avoids_bind, avoids_checkMappedRoot (by simp) (by simp)] at h
    obtain ⟨hkind, hkey⟩ := h.1
    exact ⟨root, by simpa using hroot, hentity, hkind, hkey⟩

/-- The map leads from the context `c` up to another context, and there to the root in another
aggregate than `a`. -/
structure MapsAcross (m : Model) (h : ContextMapId) (c : ContextId) (a : AggregateId)
    (root : ObjectId) (up : ContextId) (b : AggregateId) : Prop where
  on_map : up ∈ (m.contextMap h).value.contexts
  up_ne : up ≠ c
  upstream : (m.isUpstreamOf h up c).value = true
  lists : b ∈ (m.contextAggregates up).value
  aggregate_ne : b ≠ a
  root_mem : root ∈ (m.aggregate b).value.objects

theorem declaresUpstream_iff (map : ContextMap) (name : String) (owner : ContextId) :
    (m.declaresUpstream map name owner).value = true ↔
      ∃ r ∈ map.relationships, ∃ u d,
        (m.relationship r).value.upstreamDownstream? = some (some u, some d) ∧
          (m.context d).value.name = (m.context owner).value.name ∧
          (m.context u).value.name = name := by
  simp only [declaresUpstream, Lookup.value_any, List.any_eq_true]
  refine exists_congr fun r => and_congr_right fun _ => ?_
  rw [Lookup.value_bind]
  split
  · next u d hr =>
    simp [hr]
    split <;> simp_all
  · next hr =>
    simp only [Lookup.value_pure, Bool.false_eq_true, false_iff, not_exists]
    exact fun u d h => hr u d h.1

/-- A map on which the mapping is in order has a context and an aggregate of the mapping's names,
with the mapped entity, and declares a context of that name upstream of one named like the owner. -/
theorem found_of_checkMappingOnMap {map : ContextMap} {owner : ContextId} {entity root : ObjectId}
    {mapping : EntityMapping} (hentity : mapping.entity = some root)
    (h : (m.checkMappingOnMap map owner entity mapping).Avoids Problem.IsError) :
    (m.declaresUpstream map mapping.boundedContext owner).value = true ∧
      ∃ up ∈ map.contexts, (m.context up).value.name = mapping.boundedContext ∧
        ∃ b ∈ (m.contextAggregates up).value, root ∈ (m.aggregate b).value.objects := by
  simp only [checkMappingOnMap, avoids_lift_bind, avoids_ite_bind, avoids_ite, avoids_report,
    hentity, Problem.isError_iff] at h
  obtain ⟨-, hdeclares, -, hlists⟩ := h
  refine ⟨by simpa using hdeclares, ?_⟩
  have hfound : ∃ up ∈ map.contexts, (m.context up).value.name = mapping.boundedContext ∧
      ∃ b ∈ (m.contextAggregates up).value, (m.aggregate b).value.name = mapping.aggregate ∧
        root ∈ (m.aggregate b).value.objects ∧ (m.object root).value.isEntity = true := by
    simpa [listsEntity_iff] using hlists
  obtain ⟨up, hup, hname, b, hb, -, hroot, -⟩ := hfound
  exact ⟨up, hup, hname, b, hb, hroot⟩

theorem avoids_checkMappingOnMap {P : Problem → Prop} {map : ContextMap}
    (h : (m.checkMappingsOnMap map).Avoids P) {c : ContextId} (hc : c ∈ map.contexts)
    {a : AggregateId} (ha : a ∈ (m.contextAggregates c).value) {entity : ObjectId}
    (hentity : entity ∈ (m.aggregate a).value.objects) {mapping : EntityMapping}
    (hmapping : (m.object entity).value.mapping? = some mapping) :
    (m.checkMappingOnMap map c entity mapping).Avoids P := by
  simp only [checkMappingsOnMap, avoids_each, avoids_lift_bind] at h
  have hchecked := h c hc a ha entity hentity
  rwa [hmapping] at hchecked

theorem participants_ne_of_checkRelationship {map : ContextMap} {r : RelationshipId}
    {c d : ContextId} (hr : (m.relationship r).value.participants = (some c, some d))
    (h : (m.checkRelationship map r).Avoids Problem.IsError) : c ≠ d := by
  rw [checkRelationship, avoids_lift_bind] at h
  simp only [avoids_bind, avoids_ite_bind, avoids_report, hr] at h
  simpa using h.2.2.1

/-! ### Clean analyses -/

section

variable (hm : m.InRange) (hclean : (m.analyze .default).value.hasErrors = false)
include hclean

theorem avoids_checkAggregate {a : AggregateId} (ha : m.Holds a.any) :
    (m.checkAggregate a).Avoids Problem.IsError := by
  have hlisted : a ∈ m.aggregateIds := Handle.mem_firsts ha
  have hmem : Subject.aggregate a ∈ m.subjects := by simp [subjects, hlisted]
  exact avoids_of_clean hclean hmem (.head _) rfl

theorem avoids_checkContextMap {h : ContextMapId} (hh : h ∈ m.contextMapIds) :
    (m.checkContextMap h).Avoids Problem.IsError := by
  have hmem : Subject.contextMap h ∈ m.subjects := by simp [subjects, hh]
  exact avoids_of_clean hclean hmem (.head _) rfl

theorem avoids_checkNames : m.checkNames.Avoids Problem.IsError := by
  have hmem : Subject.names ∈ m.subjects := by simp [subjects]
  exact avoids_of_clean hclean hmem (.head _) rfl

theorem mapsRoot_of_clean {a : AggregateId} (ha : m.Holds a.any) {entity : ObjectId}
    (hentity : entity ∈ (m.aggregate a).value.objects) {mapping : EntityMapping}
    (hmapping : (m.object entity).value.mapping? = some mapping) :
    ∃ root, m.MapsRoot entity mapping root := by
  have h := avoids_checkAggregate hclean ha
  rw [checkAggregate, avoids_lift_bind, avoids_bind, avoids_bind, avoids_each] at h
  have hcheck := h.2.2 entity hentity
  rw [avoids_lift_bind, hmapping] at hcheck
  exact mapsRoot_of_checkEntityMapping hcheck

include hm

/-- A directed relationship on a map of a clean model leads from one context to another. -/
theorem upstream_ne {h : ContextMapId} (hh : h ∈ m.contextMapIds) {r : RelationshipId}
    (hr : r ∈ (m.contextMap h).value.relationships) {u d : ContextId}
    (hpair : (m.relationship r).value.upstreamDownstream? = some (some u, some d)) :
    u ≠ d ∧ m.Holds u.any ∧ m.Holds d.any := by
  have hparticipants : (m.relationship r).value.participants = (some u, some d) := by
    cases hkind : (m.relationship r).value <;>
      simp_all [Relationship.upstreamDownstream?, Relationship.participants]
  have hcheck := avoids_checkContextMap hclean hh
  rw [checkContextMap, avoids_lift_bind, avoids_bind, avoids_each] at hcheck
  have hmap := (finds_contextMap hm (holds_of_mem_contextMapIds hh)).value_prop
  have hrange := (finds_relationship hm (hmap.relationships r hr)).value_prop
  exact ⟨participants_ne_of_checkRelationship hparticipants (hcheck.1 r hr),
    hrange.first u (by simp [hparticipants]), hrange.second d (by simp [hparticipants])⟩

/-- A map leads from a context with the aggregate of the entity up to a context of the mapping's
name, which lists an aggregate with the mapped entity. -/
theorem upstream_of_clean {h : ContextMapId} (hh : h ∈ m.contextMapIds) {c : ContextId}
    (hc : c ∈ (m.contextMap h).value.contexts) {a : AggregateId}
    (ha : a ∈ (m.contextAggregates c).value) {entity : ObjectId}
    (hentity : entity ∈ (m.aggregate a).value.objects) {mapping : EntityMapping}
    (hmapping : (m.object entity).value.mapping? = some mapping) {root : ObjectId}
    (hroot : mapping.entity = some root) :
    ∃ up ∈ (m.contextMap h).value.contexts,
      (m.context up).value.name = mapping.boundedContext ∧ up ≠ c ∧
      (m.isUpstreamOf h up c).value = true ∧
      ∃ b ∈ (m.contextAggregates up).value, root ∈ (m.aggregate b).value.objects := by
  have hmap := (finds_contextMap hm (holds_of_mem_contextMapIds hh)).value_prop
  have hcheck := avoids_checkContextMap hclean hh
  rw [checkContextMap, avoids_lift_bind, avoids_bind, avoids_bind] at hcheck
  obtain ⟨hdeclares, up, hup, hname, hlists⟩ := found_of_checkMappingOnMap hroot
    (avoids_checkMappingOnMap hcheck.2.2 hc ha hentity hmapping)
  obtain ⟨r, hr, u, d, hpair, hd, hu⟩ := (declaresUpstream_iff _ _ _).mp hdeclares
  obtain ⟨hne, hheldu, hheldd⟩ := upstream_ne hm hclean hh hr hpair
  -- names are distinct, so the relationship is between the very contexts that were found by name
  have hinj := fun {c d} => context_name_inj (m := m) (c := c) (d := d)
    (fun _ => by simp) (avoids_checkNames hclean)
  obtain rfl : d = c := hinj hheldd (hmap.contexts c hc) hd
  obtain rfl : u = up := hinj hheldu (hmap.contexts up hup) (hu.trans hname.symm)
  exact ⟨u, hup, hname, hne, (m.isUpstreamOf_iff h u d).mpr ⟨r, hr, hpair⟩, hlists⟩

/-- … and the aggregate with the mapped entity is not the one of the entity itself. -/
theorem mapsAcross_of_clean {h : ContextMapId} (hh : h ∈ m.contextMapIds) {c : ContextId}
    (hc : c ∈ (m.contextMap h).value.contexts) {a : AggregateId}
    (ha : a ∈ (m.contextAggregates c).value) {entity : ObjectId}
    (hentity : entity ∈ (m.aggregate a).value.objects) {mapping : EntityMapping}
    (hmapping : (m.object entity).value.mapping? = some mapping) {root : ObjectId}
    (hroot : mapping.entity = some root) :
    ∃ up b, m.MapsAcross h c a root up b := by
  have hmap := (finds_contextMap hm (holds_of_mem_contextMapIds hh)).value_prop
  obtain ⟨up, hup, hname, hne, hupstream, b, hb, hmem⟩ :=
    upstream_of_clean hm hclean hh hc ha hentity hmapping hroot
  refine ⟨up, b, hup, hne, hupstream, hb, ?_, hmem⟩
  -- else the upstream context would list the entity too, and the map would lead up from there
  rintro rfl
  obtain ⟨up', hup', hname', hne', -⟩ :=
    upstream_of_clean hm hclean hh hup hb hentity hmapping hroot
  refine hne' (context_name_inj (fun _ => by simp) (avoids_checkNames hclean)
    (hmap.contexts up' hup') (hmap.contexts up hup) (hname'.trans hname.symm))

/-- **After a clean analysis a mapping leads from an entity that is no root to a root entity with a
key.** Every map with a context that lists the entity's aggregate leads up from there to another
context, which lists another aggregate with that root. -/
theorem mapping_reaches_root {a : AggregateId} (ha : m.Holds a.any) {entity : ObjectId}
    (hentity : entity ∈ (m.aggregate a).value.objects) {mapping : EntityMapping}
    (hmapping : (m.object entity).value.mapping? = some mapping) :
    ∃ root, m.MapsRoot entity mapping root ∧
      ∀ h ∈ m.contextMapIds, ∀ c ∈ (m.contextMap h).value.contexts,
        a ∈ (m.contextAggregates c).value → ∃ up b, m.MapsAcross h c a root up b := by
  obtain ⟨root, hroot⟩ := mapsRoot_of_clean hclean ha hentity hmapping
  exact ⟨root, hroot, fun h hh c hc hlisted =>
    mapsAcross_of_clean hm hclean hh hc hlisted hentity hmapping hroot.entity_eq⟩

end

/-- Customers stand for the clients of CRM. Their aggregate names Sales as its context, which lists
the aggregates given as `listed` and is on the maps given as `maps`. -/
def mirroredClients (listed : List AggregateId) (maps : List ContextMap) : Model :=
  { Model.empty with
    contexts := [⟨"CRM", .feature, [⟨0⟩], [], [], [], none⟩,
      ⟨"Sales", .feature, listed, [], [], [], none⟩]
    aggregates := [⟨"Clients", some ⟨0⟩, [⟨0⟩], []⟩, ⟨"Customers", some ⟨1⟩, [⟨1⟩], []⟩]
    objects := [⟨"Client", ⟨0⟩, .entity ⟨none, none⟩, true, [⟨0⟩], [], none, none, []⟩,
      ⟨"Customer", ⟨1⟩,
        .entity ⟨some ⟨"CRM", "Clients", some ⟨0⟩, [],
          [⟨"client", "String", .root, [], "clientId"⟩]⟩, none⟩,
        false, [], [], none, none, []⟩]
    attributes := [⟨"clientId", "String", ⟨0⟩, true, none⟩]
    contextMaps := maps
    relationships := [.upstreamDownstream ⟨false, some ⟨0⟩, some ⟨1⟩, [], [], []⟩] }

theorem mapping_reaches_root_clients :
    let m := mirroredClients [⟨1⟩] [⟨"Landscape", none, [⟨0⟩, ⟨1⟩], [⟨0⟩]⟩]
    ∃ mapping, (m.object ⟨1⟩).value.mapping? = some mapping ∧
      m.InRange ∧ (m.analyze .default).value.hasErrors = false ∧
      ∃ root, m.MapsRoot ⟨1⟩ mapping root ∧
        ∀ h ∈ m.contextMapIds, ∀ c ∈ (m.contextMap h).value.contexts,
          ⟨1⟩ ∈ (m.contextAggregates c).value → ∃ up b, m.MapsAcross h c ⟨1⟩ root up b := by
  intro m
  have range : m.InRange := linked_iff_inRange.mp (by decide)
  have clean : (m.analyze .default).value.hasErrors = false := by decide
  exact ⟨_, rfl, range, clean,
    mapping_reaches_root range clean (a := ⟨1⟩) (by decide) (List.mem_singleton.mpr rfl) rfl⟩

/-- A contact stands for the client of its own aggregate, and there are no maps. -/
def mirroredOwnRoot : Model :=
  { Model.empty with
    contexts := [⟨"CRM", .feature, [⟨0⟩], [], [], [], none⟩]
    aggregates := [⟨"Clients", some ⟨0⟩, [⟨0⟩, ⟨1⟩], []⟩]
    objects := [⟨"Client", ⟨0⟩, .entity ⟨none, none⟩, true, [⟨0⟩], [], none, none, []⟩,
      ⟨"Contact", ⟨0⟩,
        .entity ⟨some ⟨"CRM", "Clients", some ⟨0⟩, [],
          [⟨"client", "String", .root, [], "clientId"⟩]⟩, none⟩,
        false, [], [], none, none, []⟩]
    attributes := [⟨"clientId", "String", ⟨0⟩, true, none⟩] }

/-- **A mapping may lead to a context that is not upstream** if the context of the entity is on no
map, or if it does not list the aggregate that names it. It may even lead to the root of the
entity's own aggregate. -/
theorem mapping_off_map :
    (let m := mirroredClients [⟨1⟩] [];
      m.InRange ∧ (m.analyze .default).value.hasErrors = false ∧
        (m.object ⟨1⟩).value.mapping?.isSome ∧ (m.contextOfObject ⟨1⟩).value = some ⟨1⟩ ∧
        m.contextMapIds = []) ∧
    (let m := mirroredClients [] [⟨"Landscape", none, [⟨0⟩, ⟨1⟩], []⟩];
      m.InRange ∧ (m.analyze .default).value.hasErrors = false ∧
        (m.object ⟨1⟩).value.mapping?.isSome ∧ (m.contextOfObject ⟨1⟩).value = some ⟨1⟩ ∧
        ∀ h ∈ m.contextMapIds, (m.isUpstreamOf h ⟨0⟩ ⟨1⟩).value = false) ∧
    (let m := mirroredOwnRoot;
      m.InRange ∧ (m.analyze .default).value.hasErrors = false ∧
        (m.object ⟨1⟩).value.mapping?.bind (·.entity) = some ⟨0⟩ ∧
        (m.contextOfObject ⟨1⟩).value = some ⟨0⟩ ∧
        (m.object ⟨0⟩).value.aggregate = (m.object ⟨1⟩).value.aggregate) := by
  refine ⟨?_, ?_, ?_⟩
  · exact ⟨linked_iff_inRange.mp (by decide), by decide, by decide, by decide, by decide⟩
  · exact ⟨linked_iff_inRange.mp (by decide), by decide, by decide, by decide, by decide⟩
  · exact ⟨linked_iff_inRange.mp (by decide), by decide, by decide, by decide, by decide⟩

end DomainModel.Model
