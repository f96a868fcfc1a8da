import DomainModel.Model.Navigation
import DomainModel.Proofs.Totality.Basic
import DomainModel.Proofs.Totality.Links

/-! # Navigating a model in range

In a model whose handles are in range, navigation that starts inside the arenas stays inside them:
each query of `Model.Navigation` misses nothing, and the handles it finds point inside their arenas
again. -/

namespace DomainModel

/-- The handle of a position points there or, wrapped around, further in front. -/
theorem Handle.index_ofIndex_le (arena : Arena) (i : Nat) :
    (Handle.ofIndex i : Handle arena).index ≤ i := by
  unfold Handle.ofIndex Handle.index
  rw [UInt32.toNat_ofNat']
  exact Nat.mod_le _ _

theorem Handle.index_lt_of_mem_firsts {arena : Arena} {n : Nat} {h : Handle arena}
    (hh : h ∈ Handle.firsts n) : h.index < n := by
  unfold Handle.firsts at hh
  rw [List.mem_map] at hh
  obtain ⟨i, hi, rfl⟩ := hh
  have h1 := Handle.index_ofIndex_le arena i
  have h2 := List.mem_range.mp hi
  omega

namespace Model

variable {m : Model}

/-! ### Handles of all nodes -/

theorem holds_of_mem_contextIds {c : ContextId} (h : c ∈ m.contextIds) : m.Holds c.any :=
  Handle.index_lt_of_mem_firsts h

theorem holds_of_mem_aggregateIds {a : AggregateId} (h : a ∈ m.aggregateIds) : m.Holds a.any :=
  Handle.index_lt_of_mem_firsts h

theorem holds_of_mem_objectIds {o : ObjectId} (h : o ∈ m.objectIds) : m.Holds o.any :=
  Handle.index_lt_of_mem_firsts h

theorem holds_of_mem_antiCorruptionIds {a : AntiCorruptionId} (h : a ∈ m.antiCorruptionIds) :
    m.Holds a.any :=
  Handle.index_lt_of_mem_firsts h

theorem holds_of_mem_contextMapIds {h : ContextMapId} (hh : h ∈ m.contextMapIds) : m.Holds h.any :=
  Handle.index_lt_of_mem_firsts hh

/-! ### Nodes -/

theorem finds_node {α : Type} [Inhabited α] {arena : Arena} {nodes : List α} {h : Handle arena}
    {P : α → Prop} (hP : ∀ a ∈ nodes, P a) (hh : h.index < nodes.length) :
    (Lookup.node nodes h).Finds P := by
  unfold Lookup.node
  rw [List.getElem?_eq_getElem hh]
  exact ⟨rfl, hP _ (List.getElem_mem hh)⟩

variable (hm : m.InRange)
include hm

theorem finds_context {c : ContextId} (hc : m.Holds c.any) :
    (m.context c).Finds (BoundedContext.InRange m) :=
  finds_node hm.contexts hc

theorem finds_module {h : ModuleId} (hh : m.Holds h.any) :
    (m.module h).Finds (Module.InRange m) :=
  finds_node hm.modules hh

theorem finds_aggregate {a : AggregateId} (ha : m.Holds a.any) :
    (m.aggregate a).Finds (Aggregate.InRange m) :=
  finds_node hm.aggregates ha

theorem finds_object {o : ObjectId} (ho : m.Holds o.any) :
    (m.object o).Finds (DomainObject.InRange m) :=
  finds_node hm.objects ho

theorem finds_attributeOf {a : AttributeId} (ha : m.Holds a.any) :
    (m.attributeOf a).Finds (Attribute.InRange m) :=
  finds_node hm.attributes ha

theorem finds_reference {r : ReferenceId} (hr : m.Holds r.any) :
    (m.reference r).Finds (Reference.InRange m) :=
  finds_node hm.references hr

theorem finds_antiCorruption {a : AntiCorruptionId} (ha : m.Holds a.any) :
    (m.antiCorruption a).Finds (AntiCorruption.InRange m) :=
  finds_node hm.antiCorruptions ha

theorem finds_contextMap {h : ContextMapId} (hh : m.Holds h.any) :
    (m.contextMap h).Finds (ContextMap.InRange m) :=
  finds_node hm.contextMaps hh

theorem finds_relationship {r : RelationshipId} (hr : m.Holds r.any) :
    (m.relationship r).Finds (Relationship.InRange m) :=
  finds_node hm.relationships hr

/-! ### Upwards -/

theorem finds_contextOfAggregate {a : AggregateId} (ha : m.Holds a.any) :
    (m.contextOfAggregate a).Finds fun r => ∀ c ∈ r, m.Holds c.any :=
  (finds_aggregate hm ha).bind fun _ hn => .pure hn.context

theorem finds_contextOfObject {o : ObjectId} (ho : m.Holds o.any) :
    (m.contextOfObject o).Finds fun r => ∀ c ∈ r, m.Holds c.any :=
  (finds_object hm ho).bind fun _ hn => finds_contextOfAggregate hm hn.aggregate

/-! ### Within an aggregate -/

theorem finds_rootEntity {a : AggregateId} (ha : m.Holds a.any) :
    (m.rootEntity a).Finds fun r => ∀ o ∈ r, m.Holds o.any := by
  refine (finds_aggregate hm ha).bind fun n hn => ?_
  refine (Lookup.finds_find? fun o ho => ?_).mono fun r hr o ho => hn.objects o (hr o ho)
  exact (finds_object hm (hn.objects o ho)).bind fun _ _ => .pure trivial

theorem finds_objectByName {a : AggregateId} (ha : m.Holds a.any) (name : String) :
    (m.objectByName a name).Finds fun r => ∀ o ∈ r, m.Holds o.any := by
  refine (finds_aggregate hm ha).bind fun n hn => ?_
  refine (Lookup.finds_find? fun o ho => ?_).mono fun r hr o ho => hn.objects o (hr o ho)
  exact (finds_object hm (hn.objects o ho)).bind fun _ _ => .pure trivial

theorem total_entityNames {a : AggregateId} (ha : m.Holds a.any) : (m.entityNames a).Total := by
  refine (finds_aggregate hm ha).bind fun n hn => ?_
  refine (Lookup.finds_map fun o ho => finds_object hm (hn.objects o ho)).bind fun _ _ => ?_
  exact .pure trivial

theorem total_listsEntity {a : AggregateId} (ha : m.Holds a.any) {o : ObjectId}
    (ho : m.Holds o.any) : (m.listsEntity a o).Total := by
  refine (finds_aggregate hm ha).bind fun n hn => ?_
  split
  · exact (finds_object hm ho).bind fun _ _ => .pure trivial
  · exact .pure trivial

/-! ### Within an object -/

theorem finds_attributeByName {o : ObjectId} (ho : m.Holds o.any) (name : String) :
    (m.attributeByName o name).Finds fun r => ∀ a ∈ r, m.Holds a.any := by
  refine (finds_object hm ho).bind fun n hn => ?_
  refine (Lookup.finds_find? fun a ha => ?_).mono fun r hr a ha => hn.attributes a (hr a ha)
  exact (finds_attributeOf hm (hn.attributes a ha)).bind fun _ _ => .pure trivial

theorem finds_referenceByName {o : ObjectId} (ho : m.Holds o.any) (name : String) :
    (m.referenceByName o name).Finds fun r => ∀ a ∈ r, m.Holds a.any := by
  refine (finds_object hm ho).bind fun n hn => ?_
  refine (Lookup.finds_find? fun a ha => ?_).mono fun r hr a ha => hn.references a (hr a ha)
  exact (finds_reference hm (hn.references a ha)).bind fun _ _ => .pure trivial

theorem finds_keyAttribute {o : ObjectId} (ho : m.Holds o.any) :
    (m.keyAttribute o).Finds fun r => ∀ a ∈ r, m.Holds a.any := by
  refine (finds_object hm ho).bind fun n hn => ?_
  refine (Lookup.finds_find? fun a ha => ?_).mono fun r hr a ha => hn.attributes a (hr a ha)
  exact (finds_attributeOf hm (hn.attributes a ha)).bind fun _ _ => .pure trivial

theorem finds_rootKey {a : AggregateId} (ha : m.Holds a.any) :
    (m.rootKey a).Finds fun r => ∀ p ∈ r, m.Holds p.1.any ∧ m.Holds p.2.any := by
  refine (finds_rootEntity hm ha).bind fun r hr => ?_
  cases r with
  | none => exact .pure (by simp)
  | some root =>
    refine (finds_keyAttribute hm (hr root rfl)).bind fun k hk => .pure ?_
    rintro ⟨o, b⟩ hp
    obtain ⟨c, hc, h⟩ := Option.map_eq_some_iff.mp hp
    cases h
    exact ⟨hr root rfl, hk b hc⟩

/-! ### Within a context, and between contexts -/

theorem finds_contextAggregates {c : ContextId} (hc : m.Holds c.any) :
    (m.contextAggregates c).Finds fun as => ∀ a ∈ as, m.Holds a.any := by
  refine (finds_context hm hc).bind fun n hn => ?_
  refine (Lookup.finds_flatMap (P := fun a => m.Holds a.any) fun h hh => ?_).bind
    fun as has => .pure fun a ha => ?_
  · exact (finds_module hm (hn.modules h hh)).bind fun _ hk => .pure hk.aggregates
  · rcases List.mem_append.mp ha with ha | ha
    · exact hn.aggregates a ha
    · exact has a ha

theorem finds_antiCorruptionInContext {c : ContextId} (hc : m.Holds c.any) (name : String) :
    (m.antiCorruptionInContext c name).Finds fun r => ∀ a ∈ r, m.Holds a.any := by
  refine (finds_context hm hc).bind fun n hn => ?_
  refine (Lookup.finds_find? fun a ha => ?_).mono fun r hr a ha => hn.antiCorruptions a (hr a ha)
  exact (finds_antiCorruption hm (hn.antiCorruptions a ha)).bind fun _ _ => .pure trivial

theorem finds_contextMapOf (c : ContextId) :
    (m.contextMapOf c).Finds fun r => ∀ h ∈ r, m.Holds h.any := by
  refine (Lookup.finds_find? fun h hh => ?_).mono
    fun r hr h hh => holds_of_mem_contextMapIds (hr h hh)
  exact (finds_contextMap hm (holds_of_mem_contextMapIds hh)).bind fun _ _ => .pure trivial

theorem total_isUpstreamOf {h : ContextMapId} (hh : m.Holds h.any) (up down : ContextId) :
    (m.isUpstreamOf h up down).Total := by
  refine (finds_contextMap hm hh).bind fun n hn => ?_
  refine Lookup.total_any fun r hr => ?_
  exact (finds_relationship hm (hn.relationships r hr)).bind fun _ _ => .pure trivial

end Model

end DomainModel
