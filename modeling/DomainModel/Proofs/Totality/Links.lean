import DomainModel.Model.Links

/-! # Handles inside their arenas

`Model.InRange` says, node by node and field by field, that every handle a model stores points
inside its arena. The list `Model.links`, by which a model is checked, is another way to say it: a
model is `Linked` exactly if it is in range (`linked_iff_inRange`). -/

namespace DomainModel

variable (m : Model)

/-! ### The fields of each kind of node -/

/-- The domain object that a declared type names, if it names one. -/
def ComplexType.InRange (t : ComplexType) : Prop :=
  ∀ o, t.target = .domainObject (some o) → m.Holds o.any

structure BoundedContext.InRange (c : BoundedContext) : Prop where
  aggregates : ∀ a ∈ c.aggregates, m.Holds a.any
  modules : ∀ h ∈ c.modules, m.Holds h.any
  antiCorruptions : ∀ a ∈ c.antiCorruptions, m.Holds a.any
  realizes : ∀ r ∈ c.realizes, m.Holds r.any
  owner : ∀ o ∈ c.owner, m.Holds o.any

structure Module.InRange (h : Module) : Prop where
  aggregates : ∀ a ∈ h.aggregates, m.Holds a.any

structure Aggregate.InRange (a : Aggregate) : Prop where
  context : ∀ c ∈ a.context, m.Holds c.any
  objects : ∀ o ∈ a.objects, m.Holds o.any

structure EntityMapping.InRange (e : EntityMapping) : Prop where
  entity : ∀ o ∈ e.entity, m.Holds o.any
  aliases : ∀ d ∈ e.aliases, ∀ r ∈ d.references, m.Holds r.any
  attributes : ∀ a ∈ e.attributes, ∀ r ∈ a.path.references, m.Holds r.any

structure EntityUses.InRange (u : EntityUses) : Prop where
  boundedContext : ∀ c ∈ u.boundedContext, m.Holds c.any
  aggregate : ∀ a ∈ u.aggregate, m.Holds a.any
  valueObject : ∀ o ∈ u.valueObject, m.Holds o.any

/-- The types of a signature. -/
structure SignatureInRange (parameters : List Parameter) (returnType : Option ComplexType) :
    Prop where
  parameters : ∀ p ∈ parameters, p.type.InRange m
  returnType : ∀ t ∈ returnType, t.InRange m

structure DomainObject.InRange (o : DomainObject) : Prop where
  aggregate : m.Holds o.aggregate.any
  attributes : ∀ a ∈ o.attributes, m.Holds a.any
  references : ∀ r ∈ o.references, m.Holds r.any
  mapping : ∀ e ∈ o.mapping?, e.InRange m
  uses : ∀ u ∈ o.uses?, u.InRange m
  constructor : ∀ c ∈ o.constructor, SignatureInRange m c.parameters none
  operations : ∀ p ∈ o.operations, SignatureInRange m p.parameters p.returnType
  queries : ∀ r ∈ o.repository, ∀ q ∈ r.operations, SignatureInRange m q.parameters q.returnType

structure Attribute.InRange (a : Attribute) : Prop where
  owner : m.Holds a.owner.any

structure Reference.InRange (r : Reference) : Prop where
  owner : m.Holds r.owner.any
  target : ∀ o ∈ r.target, m.Holds o.any

structure AntiCorruption.InRange (a : AntiCorruption) : Prop where
  owner : m.Holds a.owner.any
  boundedContext : ∀ c ∈ a.boundedContext, m.Holds c.any
  aggregate : ∀ g ∈ a.aggregate, m.Holds g.any
  entities : ∀ t ∈ a.attributes, ∀ o ∈ t.entity, m.Holds o.any
  entityAttributes : ∀ t ∈ a.attributes, ∀ b ∈ t.entityAttribute, m.Holds b.any

structure ContextMap.InRange (h : ContextMap) : Prop where
  contexts : ∀ c ∈ h.contexts, m.Holds c.any
  relationships : ∀ r ∈ h.relationships, m.Holds r.any

structure Relationship.InRange (r : Relationship) : Prop where
  first : ∀ c ∈ r.participants.1, m.Holds c.any
  second : ∀ c ∈ r.participants.2, m.Holds c.any
  exposed : ∀ s, r = .upstreamDownstream s → ∀ a ∈ s.exposedAggregates, m.Holds a.any

/-- **Every handle that the model stores points inside its arena.** -/
structure Model.InRange : Prop where
  contexts : ∀ c ∈ m.contexts, c.InRange m
  modules : ∀ h ∈ m.modules, h.InRange m
  aggregates : ∀ a ∈ m.aggregates, a.InRange m
  objects : ∀ o ∈ m.objects, o.InRange m
  attributes : ∀ a ∈ m.attributes, a.InRange m
  references : ∀ r ∈ m.references, r.InRange m
  antiCorruptions : ∀ a ∈ m.antiCorruptions, a.InRange m
  contextMaps : ∀ h ∈ m.contextMaps, h.InRange m
  relationships : ∀ r ∈ m.relationships, r.InRange m

/-! ### The listed handles of each kind of node -/

section

variable {m}

/-- All handles of a list point inside their arenas. -/
abbrev AllHold (m : Model) (hs : List AnyHandle) : Prop := ∀ h ∈ hs, m.Holds h

theorem allHold_anyHandles {arena : Arena} {hs : List (Handle arena)} :
    AllHold m (anyHandles hs) ↔ ∀ h ∈ hs, m.Holds h.any := by
  simp [AllHold, anyHandles]

theorem allHold_append {hs ks : List AnyHandle} :
    AllHold m (hs ++ ks) ↔ AllHold m hs ∧ AllHold m ks := by
  simp [AllHold, or_imp, forall_and]

theorem allHold_flatMap {α : Type} {f : α → List AnyHandle} {as : List α} :
    AllHold m (as.flatMap f) ↔ ∀ a ∈ as, AllHold m (f a) := by
  simp only [AllHold, List.mem_flatMap]
  exact ⟨fun h a ha k hk => h k ⟨a, ha, hk⟩, fun h k ⟨a, ha, hk⟩ => h a ha k hk⟩

theorem allHold_cons {h : AnyHandle} {hs : List AnyHandle} :
    AllHold m (h :: hs) ↔ m.Holds h ∧ AllHold m hs := by
  simp [AllHold]

theorem allHold_complexType {t : ComplexType} : AllHold m t.handles ↔ t.InRange m := by
  obtain ⟨c, target⟩ := t
  cases target with
  | primitive n => simp [AllHold, ComplexType.handles, ComplexType.InRange]
  | domainObject o => simp [ComplexType.handles, ComplexType.InRange, allHold_anyHandles]

theorem allHold_signature {ps : List Parameter} {r : Option ComplexType} :
    AllHold m (signatureHandles ps r) ↔ SignatureInRange m ps r := by
  unfold signatureHandles
  rw [allHold_append, allHold_flatMap, allHold_flatMap]
  simp only [allHold_complexType, Option.mem_toList]
  exact ⟨fun ⟨h1, h2⟩ => ⟨h1, h2⟩, fun ⟨h1, h2⟩ => ⟨h1, h2⟩⟩

theorem allHold_boundedContext {c : BoundedContext} : AllHold m c.handles ↔ c.InRange m := by
  unfold BoundedContext.handles
  simp only [allHold_append, allHold_anyHandles, Option.mem_toList]
  constructor
  · rintro ⟨⟨⟨⟨h1, h2⟩, h3⟩, h4⟩, h5⟩; exact ⟨h1, h2, h3, h4, h5⟩
  · rintro ⟨h1, h2, h3, h4, h5⟩; exact ⟨⟨⟨⟨h1, h2⟩, h3⟩, h4⟩, h5⟩

theorem allHold_module {h : Module} : AllHold m (anyHandles h.aggregates) ↔ h.InRange m := by
  rw [allHold_anyHandles]
  exact ⟨fun h1 => ⟨h1⟩, fun h1 => h1.1⟩

theorem allHold_aggregate {a : Aggregate} : AllHold m a.handles ↔ a.InRange m := by
  unfold Aggregate.handles
  simp only [allHold_append, allHold_anyHandles, Option.mem_toList]
  exact ⟨fun ⟨h1, h2⟩ => ⟨h1, h2⟩, fun ⟨h1, h2⟩ => ⟨h1, h2⟩⟩

theorem allHold_entityMapping {e : EntityMapping} : AllHold m e.handles ↔ e.InRange m := by
  unfold EntityMapping.handles
  simp only [allHold_append, allHold_flatMap, allHold_anyHandles, Option.mem_toList]
  constructor
  · rintro ⟨⟨h1, h2⟩, h3⟩; exact ⟨h1, h2, h3⟩
  · rintro ⟨h1, h2, h3⟩; exact ⟨⟨h1, h2⟩, h3⟩

theorem allHold_entityUses {u : EntityUses} : AllHold m u.handles ↔ u.InRange m := by
  unfold EntityUses.handles
  simp only [allHold_append, allHold_anyHandles, Option.mem_toList]
  constructor
  · rintro ⟨⟨h1, h2⟩, h3⟩; exact ⟨h1, h2, h3⟩
  · rintro ⟨h1, h2, h3⟩; exact ⟨⟨h1, h2⟩, h3⟩

theorem allHold_kind {o : DomainObject} :
    AllHold m o.kind.handles ↔
      (∀ e ∈ o.mapping?, e.InRange m) ∧ ∀ u ∈ o.uses?, u.InRange m := by
  unfold DomainObject.mapping? DomainObject.uses? ObjectKind.handles ObjectKind.entity?
  cases o.kind with
  | entity data =>
    simp only [allHold_append, allHold_flatMap, allHold_entityMapping, allHold_entityUses,
      Option.mem_toList, Option.bind_some]
    exact Iff.rfl
  | _ => simp [AllHold]

theorem allHold_signatures {o : DomainObject} :
    AllHold m o.signatures ↔
      (∀ c ∈ o.constructor, SignatureInRange m c.parameters none) ∧
      (∀ p ∈ o.operations, SignatureInRange m p.parameters p.returnType) ∧
      ∀ r ∈ o.repository, ∀ q ∈ r.operations, SignatureInRange m q.parameters q.returnType := by
  unfold DomainObject.signatures
  simp only [allHold_append, allHold_flatMap, allHold_signature, Option.mem_toList,
    List.mem_flatMap]
  constructor
  · rintro ⟨⟨h1, h2⟩, h3⟩; exact ⟨h1, h2, fun r hr q hq => h3 q ⟨r, hr, hq⟩⟩
  · rintro ⟨h1, h2, h3⟩; exact ⟨⟨h1, h2⟩, fun q ⟨r, hr, hq⟩ => h3 r hr q hq⟩

theorem allHold_domainObject {o : DomainObject} : AllHold m o.handles ↔ o.InRange m := by
  unfold DomainObject.handles
  rw [allHold_cons]
  simp only [allHold_append, allHold_anyHandles, allHold_kind, allHold_signatures]
  constructor
  · rintro ⟨h1, ⟨⟨h2, h3⟩, h4, h5⟩, h6, h7, h8⟩; exact ⟨h1, h2, h3, h4, h5, h6, h7, h8⟩
  · rintro ⟨h1, h2, h3, h4, h5, h6, h7, h8⟩; exact ⟨h1, ⟨⟨h2, h3⟩, h4, h5⟩, h6, h7, h8⟩

theorem allHold_attribute {a : Attribute} : AllHold m [a.owner.any] ↔ a.InRange m := by
  rw [AllHold, List.forall_mem_singleton]
  exact ⟨fun h => ⟨h⟩, fun h => h.1⟩

theorem allHold_reference {r : Reference} : AllHold m r.handles ↔ r.InRange m := by
  unfold Reference.handles
  simp only [allHold_cons, allHold_anyHandles, Option.mem_toList]
  exact ⟨fun ⟨h1, h2⟩ => ⟨h1, h2⟩, fun ⟨h1, h2⟩ => ⟨h1, h2⟩⟩

theorem allHold_antiCorruption {a : AntiCorruption} : AllHold m a.handles ↔ a.InRange m := by
  unfold AntiCorruption.handles
  simp only [allHold_cons, allHold_append, allHold_flatMap, allHold_anyHandles, Option.mem_toList]
  constructor
  · rintro ⟨h1, ⟨h2, h3⟩, h4⟩; exact ⟨h1, h2, h3, fun t ht => (h4 t ht).1, fun t ht => (h4 t ht).2⟩
  · rintro ⟨h1, h2, h3, h4, h5⟩; exact ⟨h1, ⟨h2, h3⟩, fun t ht => ⟨h4 t ht, h5 t ht⟩⟩

theorem allHold_contextMap {h : ContextMap} : AllHold m h.handles ↔ h.InRange m := by
  unfold ContextMap.handles
  simp only [allHold_append, allHold_anyHandles]
  exact ⟨fun ⟨h1, h2⟩ => ⟨h1, h2⟩, fun ⟨h1, h2⟩ => ⟨h1, h2⟩⟩

theorem allHold_relationship {r : Relationship} : AllHold m r.handles ↔ r.InRange m := by
  unfold Relationship.handles
  simp only [allHold_append, allHold_anyHandles, Option.mem_toList]
  constructor
  · rintro ⟨⟨h1, h2⟩, h3⟩
    refine ⟨h1, h2, ?_⟩
    rintro s rfl
    exact allHold_anyHandles.mp h3
  · rintro ⟨h1, h2, h3⟩
    refine ⟨⟨h1, h2⟩, ?_⟩
    cases r with
    | symmetric p a b => simp [AllHold]
    | upstreamDownstream s => exact allHold_anyHandles.mpr (h3 s rfl)

/-! ### The links of a model -/

/-- The links of the nodes of one arena. -/
theorem forall_linksOf {α : Type} {nodes : List α} {owner : α → Owner}
    {handles : α → List AnyHandle} :
    (∀ l ∈ nodes.flatMap fun a => Model.linksOf (owner a) (handles a), m.Holds l.handle) ↔
      ∀ a ∈ nodes, AllHold m (handles a) := by
  simp only [List.mem_flatMap, Model.linksOf, List.mem_map]
  constructor
  · intro h a ha k hk
    exact h ⟨owner a, k⟩ ⟨a, ha, k, hk, rfl⟩
  · rintro h l ⟨a, ha, k, hk, rfl⟩
    exact h a ha k hk

theorem forall_mem_zipIdx {α : Type} {P : α → Prop} {as : List α} :
    (∀ p ∈ as.zipIdx, P p.1) ↔ ∀ a ∈ as, P a := by
  constructor
  · intro h a ha
    obtain ⟨i, hi, rfl⟩ := List.getElem_of_mem ha
    exact h (as[i], i) (by simp [List.mk_mem_zipIdx_iff_getElem?, hi])
  · intro h p hp
    exact h p.1 (List.fst_mem_of_mem_zipIdx hp)

/-- **The links of a model list every handle that it stores.** -/
theorem linked_iff_inRange : m.Linked ↔ m.InRange := by
  unfold Model.Linked Model.links
  simp only [List.mem_append, or_imp, forall_and, forall_linksOf,
    allHold_boundedContext, allHold_module, allHold_aggregate, allHold_domainObject,
    allHold_attribute, allHold_reference, allHold_antiCorruption, allHold_contextMap,
    allHold_relationship]
  constructor
  · rintro ⟨⟨⟨⟨⟨⟨⟨⟨h1, h2⟩, h3⟩, h4⟩, h5⟩, h6⟩, h7⟩, h8⟩, h9⟩
    exact ⟨forall_mem_zipIdx.mp h1, h2, h3, h4, h5, h6, h7, h8, forall_mem_zipIdx.mp h9⟩
  · rintro ⟨h1, h2, h3, h4, h5, h6, h7, h8, h9⟩
    exact ⟨⟨⟨⟨⟨⟨⟨⟨forall_mem_zipIdx.mpr h1, h2⟩, h3⟩, h4⟩, h5⟩, h6⟩, h7⟩, h8⟩,
      forall_mem_zipIdx.mpr h9⟩

end

/-- Orders with their lines, in one aggregate. -/
def Model.orders : Model :=
  { Model.empty with
    contexts := [⟨"Sales", .feature, [⟨0⟩], [], [], [], none⟩]
    aggregates := [⟨"Orders", some ⟨0⟩, [⟨0⟩, ⟨1⟩], []⟩]
    objects :=
      [⟨"Order", ⟨0⟩, .entity ⟨none, none⟩, true, [⟨0⟩], [⟨0⟩], none, none, []⟩,
        ⟨"Line", ⟨0⟩, .entity ⟨none, none⟩, false, [⟨1⟩], [], none, none, []⟩]
    attributes := [⟨"id", "String", ⟨0⟩, true, none⟩, ⟨"price", "Integer", ⟨1⟩, false, none⟩]
    references := [⟨"lines", ⟨0⟩, some ⟨1⟩, .list⟩] }

example : Model.orders.Linked := by decide

end DomainModel
