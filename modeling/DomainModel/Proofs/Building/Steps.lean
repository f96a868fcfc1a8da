import DomainModel.Proofs.Building.Growth
import DomainModel.Proofs.Totality.Links

/-! # What a call does

A call is given handles (`Call.handles`). If they all point at nodes of the model, it succeeds, adds
at most one node, and stores no handles besides those it was given, the one of the new node, and
those that the model stored before (`Call.Step`). Calls that only set a part of a node leave the
wiring alone; the others extend it. -/

namespace DomainModel

/-! ### Stored handles -/

/-- All handles that the model stores have the property. -/
structure Model.StoresOnly (P : AnyHandle → Prop) (m : Model) : Prop where
  contexts : ∀ c ∈ m.contexts, ∀ h ∈ c.handles, P h
  modules : ∀ n ∈ m.modules, ∀ h ∈ anyHandles n.aggregates, P h
  aggregates : ∀ a ∈ m.aggregates, ∀ h ∈ a.handles, P h
  objects : ∀ o ∈ m.objects, ∀ h ∈ o.handles, P h
  attributes : ∀ a ∈ m.attributes, ∀ h ∈ [a.owner.any], P h
  references : ∀ r ∈ m.references, ∀ h ∈ r.handles, P h
  antiCorruptions : ∀ a ∈ m.antiCorruptions, ∀ h ∈ a.handles, P h
  contextMaps : ∀ n ∈ m.contextMaps, ∀ h ∈ n.handles, P h
  relationships : ∀ r ∈ m.relationships, ∀ h ∈ r.handles, P h

theorem linked_iff_storesOnly {m : Model} : m.Linked ↔ m.StoresOnly m.Holds := by
  unfold Model.Linked Model.links
  simp only [List.mem_append, or_imp, forall_and, forall_linksOf, AllHold]
  constructor
  · rintro ⟨⟨⟨⟨⟨⟨⟨⟨h1, h2⟩, h3⟩, h4⟩, h5⟩, h6⟩, h7⟩, h8⟩, h9⟩
    exact ⟨forall_mem_zipIdx.mp h1, h2, h3, h4, h5, h6, h7, h8, forall_mem_zipIdx.mp h9⟩
  · rintro ⟨h1, h2, h3, h4, h5, h6, h7, h8, h9⟩
    exact ⟨⟨⟨⟨⟨⟨⟨⟨forall_mem_zipIdx.mpr h1, h2⟩, h3⟩, h4⟩, h5⟩, h6⟩, h7⟩, h8⟩,
      forall_mem_zipIdx.mpr h9⟩

theorem Model.StoresOnly.mono {P Q : AnyHandle → Prop} {m : Model} (h : m.StoresOnly P)
    (hPQ : ∀ k, P k → Q k) : m.StoresOnly Q where
  contexts c hc k hk := hPQ k (h.contexts c hc k hk)
  modules n hn k hk := hPQ k (h.modules n hn k hk)
  aggregates a ha k hk := hPQ k (h.aggregates a ha k hk)
  objects o ho k hk := hPQ k (h.objects o ho k hk)
  attributes a ha k hk := hPQ k (h.attributes a ha k hk)
  references r hr k hk := hPQ k (h.references r hr k hk)
  antiCorruptions a ha k hk := hPQ k (h.antiCorruptions a ha k hk)
  contextMaps n hn k hk := hPQ k (h.contextMaps n hn k hk)
  relationships r hr k hk := hPQ k (h.relationships r hr k hk)

section

variable {α : Type} {as : List α} {handles : α → List AnyHandle} {P : AnyHandle → Prop}

theorem storesOnly_append (h : ∀ a ∈ as, ∀ k ∈ handles a, P k) {a : α} (ha : ∀ k ∈ handles a, P k) :
    ∀ b ∈ as ++ [a], ∀ k ∈ handles b, P k :=
  List.forall_mem_append.mpr ⟨h, List.forall_mem_singleton.mpr ha⟩

theorem storesOnly_modify (h : ∀ a ∈ as, ∀ k ∈ handles a, P k) {write : α → α}
    (hwrite : ∀ a, ∀ k ∈ handles (write a), k ∈ handles a ∨ P k) (i : Nat) :
    ∀ a ∈ as.modify i write, ∀ k ∈ handles a, P k := by
  intro a ha k hk
  obtain ⟨j, hj, rfl⟩ := List.getElem_of_mem ha
  rw [List.length_modify] at hj
  rw [List.getElem_modify] at hk
  split at hk
  · rcases hwrite _ k hk with hk | hk
    · exact h _ (List.getElem_mem hj) k hk
    · exact hk
  · exact h _ (List.getElem_mem hj) k hk

end

/-! ### Calls -/

namespace Call

/-- The handles that a call is given, directly or inside what it sets. -/
def handles : Call → List AnyHandle
  | .context .. => []
  | .owner c team => [c.any, team.any]
  | .realizes c realized => [c.any, realized.any]
  | .module c _ | .aggregate c _ => [c.any]
  | .moduleAggregate h c _ => [h.any, c.any]
  | .object a _ kind _ => a.any :: kind.handles
  | .invariant a .. | .entity a _ | .rootEntity a _ | .valueObject a _ | .domainEvent a _
  | .lifecycleEnum a _ => [a.any]
  | .plainAttribute o .. | .keyAttribute o .. => [o.any]
  | .attributeUses a .. => [a.any]
  | .reference o _ target _ => [o.any, target.any]
  | .constructor o c => o.any :: signatureHandles c.parameters none
  | .operation o op => o.any :: signatureHandles op.parameters op.returnType
  | .repository o r =>
    o.any :: r.operations.flatMap fun q => signatureHandles q.parameters q.returnType
  | .entityMapping o mapping => o.any :: mapping.handles
  | .entityUses o uses => o.any :: uses.handles
  | .antiCorruption c _ _ mapped a => [c.any, mapped.any, a.any]
  | .translate h _ _ a => [h.any, a.any]
  | .interInvariant h .. => [h.any]
  | .contextMap _ _ contexts => anyHandles contexts
  | .relationship h r => h.any :: r.handles
  | .upstreamDownstream h a b | .partnership h a b => [h.any, a.any, b.any]

/-- The arena in which a call adds a node. -/
def adds : Call → Option Arena
  | .context .. => some .context
  | .module .. => some .module
  | .aggregate .. | .moduleAggregate .. => some .aggregate
  | .object .. | .entity .. | .rootEntity .. | .valueObject .. | .domainEvent ..
  | .lifecycleEnum .. => some .object
  | .plainAttribute .. | .keyAttribute .. => some .attribute
  | .reference .. => some .reference
  | .antiCorruption .. => some .antiCorruption
  | .contextMap .. => some .contextMap
  | .relationship .. | .upstreamDownstream .. | .partnership .. => some .relationship
  | .owner .. | .realizes .. | .invariant .. | .attributeUses .. | .constructor .. | .operation ..
  | .repository .. | .entityMapping .. | .entityUses .. | .translate .. | .interInvariant .. => none

/-- The context in which a call declares a module. -/
def home : Call → Option ContextId
  | .module c _ => some c
  | _ => none

/-- The context map to which a call adds a relationship. -/
def map : Call → Option ContextMapId
  | .relationship h _ | .upstreamDownstream h .. | .partnership h .. => some h
  | _ => none

/-- The module to which a call adds an aggregate, and the context for which it does so. -/
def within : Call → Option (ModuleId × ContextId)
  | .moduleAggregate h c _ => some (h, c)
  | _ => none

/-- What a call does to a model. -/
structure Step (call : Call) (m : Model) (result : Option Nat) (m' : Model) : Prop where
  size : ∀ arena, m'.size arena = m.size arena + if call.adds = some arena then 1 else 0
  result : ∀ arena, call.adds = some arena →
    result = some (Handle.ofIndex (m.size arena) : Handle arena).index
  stores : ∀ P, m.StoresOnly P → (∀ h ∈ call.handles, P h) →
    (∀ arena, call.adds = some arena → P (Handle.ofIndex (m.size arena) : Handle arena).any) →
    m'.StoresOnly P
  wired : ∀ homes maps, m.Wired homes maps →
    (∀ x ∈ call.within, ∃ i, homes[i]? = some x.2 ∧ x.1 = .ofIndex i) →
    m'.Wired (homes ++ call.home.toList) (maps ++ call.map.toList)

/-! ### Running -/

section

variable {m m' : Model}

theorem run_modifyNode {α : Type} {arena : Arena} {nodes : Model → List α}
    {put : Model → List α → Model} (h : Handle arena) (hh : h.index < (nodes m).length)
    (write : α → α) :
    (Builder.modifyNode nodes put h write).run m =
      .ok ((), put m ((nodes m).modify h.index write)) := by
  simp [Builder.modifyNode, hh]
  rfl

theorem run_modifyContext {c : ContextId} (hc : m.Holds c.any)
    (write : BoundedContext → BoundedContext) :
    (Builder.modifyContext c write).run m =
      .ok ((), { m with contexts := m.contexts.modify c.index write }) :=
  run_modifyNode c hc write

theorem run_modifyModule {h : ModuleId} (hh : m.Holds h.any)
    (write : Module → Module) :
    (Builder.modifyModule h write).run m =
      .ok ((), { m with modules := m.modules.modify h.index write }) :=
  run_modifyNode h hh write

theorem run_modifyAggregate {a : AggregateId} (ha : m.Holds a.any)
    (write : Aggregate → Aggregate) :
    (Builder.modifyAggregate a write).run m =
      .ok ((), { m with aggregates := m.aggregates.modify a.index write }) :=
  run_modifyNode a ha write

theorem run_modifyObject {o : ObjectId} (ho : m.Holds o.any)
    (write : DomainObject → DomainObject) :
    (Builder.modifyObject o write).run m =
      .ok ((), { m with objects := m.objects.modify o.index write }) :=
  run_modifyNode o ho write

theorem run_modifyAttribute {a : AttributeId} (ha : m.Holds a.any)
    (write : Attribute → Attribute) :
    (Builder.modifyAttribute a write).run m =
      .ok ((), { m with attributes := m.attributes.modify a.index write }) :=
  run_modifyNode a ha write

theorem run_modifyAntiCorruption {h : AntiCorruptionId} (hh : m.Holds h.any)
    (write : AntiCorruption → AntiCorruption) :
    (Builder.modifyAntiCorruption h write).run m =
      .ok ((), { m with antiCorruptions := m.antiCorruptions.modify h.index write }) :=
  run_modifyNode h hh write

theorem run_modifyContextMap {h : ContextMapId} (hh : m.Holds h.any)
    (write : ContextMap → ContextMap) :
    (Builder.modifyContextMap h write).run m =
      .ok ((), { m with contextMaps := m.contextMaps.modify h.index write }) :=
  run_modifyNode h hh write

theorem run_push {α : Type} {arena : Arena} (nodes : Model → List α)
    (put : Model → List α → Model) (a : α) :
    (Builder.push nodes put a : Build (Handle arena)).run m =
      .ok (.ofIndex (nodes m).length, put m (nodes m ++ [a])) := rfl

/-- To add a node and to put its handle into the list of its parent. -/
theorem run_add {arena : Arena} {push : Build (Handle arena)} {file : Handle arena → Build Unit}
    {h : Handle arena} {m₁ m₂ : Model} (hpush : push.run m = .ok (h, m₁))
    (hfile : (file h).run m₁ = .ok ((), m₂)) :
    (do let h ← push; file h; return h : Build (Handle arena)).run m = .ok (h, m₂) := by
  rw [StateT.run_bind, hpush]
  change (do file h; return h : Build (Handle arena)).run m₁ = _
  rw [StateT.run_bind, hfile]
  rfl

theorem run_silent {b : Build Unit} (hb : b.run m = .ok ((), m')) :
    (Builder.silent b).run m = .ok (none, m') := by
  simp [Builder.silent, hb]

theorem run_position {arena : Arena} {b : Build (Handle arena)} {h : Handle arena}
    (hb : b.run m = .ok (h, m')) : (Builder.position b).run m = .ok (some h.index, m') := by
  simp [Builder.position, hb]

/-- A call that succeeds and does what its step says. -/
def Succeeds (call : Call) (m : Model) : Prop :=
  ∃ result m', call.run.run m = .ok (result, m') ∧ Step call m result m'

variable {call : Call}

/-- A call that only sets a part of a node. -/
theorem succeeds_of_edit {result : Option Nat} (hrun : call.run.run m = .ok (result, m'))
    (hadds : call.adds = none) (hhome : call.home = none) (hmap : call.map = none)
    (hsame : m.SameWiring m')
    (hstores : ∀ P, m.StoresOnly P → (∀ h ∈ call.handles, P h) → m'.StoresOnly P) :
    call.Succeeds m :=
  ⟨result, m', hrun, {
    size := fun arena => by rw [hsame.size, hadds]; rfl
    result := fun arena h => by rw [hadds] at h; cases h
    stores := fun P hP hpassed _ => hstores P hP hpassed
    wired := fun homes maps hw _ => by
      rw [hhome, hmap]
      simpa using hsame.wired hw }⟩

/-- A call that adds a node. -/
theorem succeeds_of_add {arena : Arena} {b : Build (Handle arena)}
    (hrun : call.run = Builder.position b) (hb : b.run m = .ok (.ofIndex (m.size arena), m'))
    (hadds : call.adds = some arena)
    (hsize : ∀ other, m'.size other = m.size other + if arena = other then 1 else 0)
    (hstores : ∀ P, m.StoresOnly P → (∀ h ∈ call.handles, P h) →
      P (Handle.ofIndex (m.size arena) : Handle arena).any → m'.StoresOnly P)
    (hwired : ∀ homes maps, m.Wired homes maps →
      (∀ x ∈ call.within, ∃ i, homes[i]? = some x.2 ∧ x.1 = .ofIndex i) →
      m'.Wired (homes ++ call.home.toList) (maps ++ call.map.toList)) :
    call.Succeeds m := by
  refine ⟨_, m', hrun ▸ run_position hb, ?_, ?_, ?_, hwired⟩
  · intro other
    rw [hsize, hadds]
    simp
  · rintro other h
    rw [hadds] at h
    cases h
    rfl
  · exact fun P hP hpassed hnew => hstores P hP hpassed (hnew arena hadds)

/-! ### Calls about contexts -/

theorem succeeds_context (m : Model) (name : String) (type : ContextType) :
    (Call.context name type).Succeeds m :=
  succeeds_of_add rfl rfl rfl
    (fun other => by cases other <;> simp [Model.size])
    (fun P hP _ _ => { hP with
      contexts := storesOnly_append hP.contexts (by simp [BoundedContext.handles, anyHandles]) })
    (fun homes maps hw _ => by simpa [home, map] using hw.addContext name type)

/-- The calls that set a part of a context. -/
theorem succeeds_of_modifyContext {c : ContextId} {result : Option Nat}
    {write : BoundedContext → BoundedContext}
    (hrun : call.run.run m = .ok (result, { m with contexts := m.contexts.modify c.index write }))
    (hadds : call.adds = none) (hhome : call.home = none) (hmap : call.map = none)
    (hlinks : ∀ n, ((write n).aggregates, (write n).modules, (write n).antiCorruptions) =
      (n.aggregates, n.modules, n.antiCorruptions))
    (hwrite : ∀ n, ∀ k ∈ (write n).handles, k ∈ n.handles ∨ k ∈ call.handles) :
    call.Succeeds m :=
  succeeds_of_edit hrun hadds hhome hmap
    { Model.SameWiring.refl m with contexts := map_modify hlinks _ _ }
    fun _ hP hpassed => { hP with
      contexts := storesOnly_modify hP.contexts
        (fun n k hk => (hwrite n k hk).imp_right (hpassed k)) _ }

theorem succeeds_owner {c : ContextId} (hc : m.Holds c.any) (team : ContextId) :
    (Call.owner c team).Succeeds m := by
  refine succeeds_of_modifyContext (run_silent (run_modifyContext hc _)) rfl rfl rfl
    (fun _ => by rfl) fun n k hk => ?_
  grind [BoundedContext.handles, anyHandles, handles]

theorem succeeds_realizes {c : ContextId} (hc : m.Holds c.any) (realized : ContextId) :
    (Call.realizes c realized).Succeeds m := by
  refine succeeds_of_modifyContext (run_silent (run_modifyContext hc _)) rfl rfl rfl
    (fun _ => by rfl) fun n k hk => ?_
  grind [BoundedContext.handles, anyHandles, handles]

theorem succeeds_module {c : ContextId} (hc : m.Holds c.any) (name : String) :
    (Call.module c name).Succeeds m := by
  refine succeeds_of_add rfl (run_add (run_push ..) (run_modifyContext ?_ _)) rfl ?_ ?_ ?_
  · exact hc
  · intro other
    cases other <;> simp [Model.size]
  · intro P hP hpassed hnew
    exact { hP with
      modules := storesOnly_append hP.modules (by simp [anyHandles])
      contexts := storesOnly_modify hP.contexts (fun n k hk => by
        grind [BoundedContext.handles, anyHandles]) _ }
  · intro homes maps hw _
    simpa [home, map, Model.size] using hw.addModule hc name

/-! ### Calls about aggregates -/

theorem succeeds_aggregate {c : ContextId} (hc : m.Holds c.any) (name : String) :
    (Call.aggregate c name).Succeeds m := by
  refine succeeds_of_add rfl (run_add (run_push ..) (run_modifyContext ?_ _)) rfl ?_ ?_ ?_
  · exact hc
  · intro other
    cases other <;> simp [Model.size]
  · intro P hP hpassed hnew
    exact { hP with
      aggregates := storesOnly_append hP.aggregates (by
        grind [Aggregate.handles, anyHandles, handles])
      contexts := storesOnly_modify hP.contexts (fun n k hk => by
        grind [BoundedContext.handles, anyHandles]) _ }
  · intro homes maps hw _
    simpa [home, map, Model.size] using hw.addAggregate hc name

theorem succeeds_moduleAggregate {h : ModuleId} (hh : m.Holds h.any) (c : ContextId)
    (name : String) : (Call.moduleAggregate h c name).Succeeds m := by
  refine succeeds_of_add rfl (run_add (run_push ..) (run_modifyModule ?_ _)) rfl ?_ ?_ ?_
  · exact hh
  · intro other
    cases other <;> simp [Model.size]
  · intro P hP hpassed hnew
    exact { hP with
      aggregates := storesOnly_append hP.aggregates (by
        grind [Aggregate.handles, anyHandles, handles])
      modules := storesOnly_modify hP.modules (fun n k hk => by
        grind [anyHandles]) _ }
  · intro homes maps hw hdeclared
    obtain ⟨i, hhome, hi⟩ := hdeclared (h, c) rfl
    simpa [home, map, Model.size] using hw.addModuleAggregate hh hhome hi name

theorem succeeds_invariant {a : AggregateId} (ha : m.Holds a.any) (name : String) (e : Expr) :
    (Call.invariant a name e).Succeeds m := by
  refine succeeds_of_edit (run_silent (run_modifyAggregate ha _)) rfl rfl rfl
    { Model.SameWiring.refl m with aggregates := map_modify (fun _ => by rfl) _ _ }
    fun P hP _ => { hP with aggregates := storesOnly_modify hP.aggregates ?_ _ }
  exact fun _ _ hk => .inl hk

/-! ### Calls about objects -/

/-- The calls that add a domain object. -/
theorem succeeds_of_object {a : AggregateId} (ha : m.Holds a.any) {name : String}
    {kind : ObjectKind} {root : Bool}
    (hrun : call.run = Builder.position (Builder.object a name kind root))
    (hadds : call.adds = some .object) (hhome : call.home = none) (hmap : call.map = none)
    (hpasses : ∀ h ∈ a.any :: kind.handles, h ∈ call.handles) : call.Succeeds m := by
  refine succeeds_of_add hrun (run_add (run_push ..) (run_modifyAggregate ?_ _)) hadds ?_ ?_ ?_
  · exact ha
  · intro other
    cases other <;> simp [Model.size]
  · intro P hP hpassed hnew
    exact { hP with
      objects := storesOnly_append hP.objects (by
        grind [DomainObject.handles, DomainObject.signatures, anyHandles])
      aggregates := storesOnly_modify hP.aggregates (fun n k hk => by
        grind [Aggregate.handles, anyHandles]) _ }
  · intro homes maps hw _
    rw [hhome, hmap]
    simpa [Model.size] using hw.addObject ha name kind root

/-- The calls that set a part of a domain object. -/
theorem succeeds_of_modifyObject {o : ObjectId} {result : Option Nat}
    {write : DomainObject → DomainObject}
    (hrun : call.run.run m = .ok (result, { m with objects := m.objects.modify o.index write }))
    (hadds : call.adds = none) (hhome : call.home = none) (hmap : call.map = none)
    (hlinks : ∀ n, ((write n).aggregate, (write n).attributes, (write n).references) =
      (n.aggregate, n.attributes, n.references))
    (hwrite : ∀ n, ∀ k ∈ (write n).handles, k ∈ n.handles ∨ k ∈ call.handles) :
    call.Succeeds m :=
  succeeds_of_edit hrun hadds hhome hmap
    { Model.SameWiring.refl m with objects := map_modify hlinks _ _ }
    fun _ hP hpassed => { hP with
      objects := storesOnly_modify hP.objects
        (fun n k hk => (hwrite n k hk).imp_right (hpassed k)) _ }

theorem succeeds_constructor {o : ObjectId} (ho : m.Holds o.any) (c : Constructor) :
    (Call.constructor o c).Succeeds m := by
  refine succeeds_of_modifyObject (run_silent (run_modifyObject ho _)) rfl rfl rfl
    (fun _ => by rfl) fun n k hk => ?_
  grind [DomainObject.handles, DomainObject.signatures, handles]

theorem succeeds_operation {o : ObjectId} (ho : m.Holds o.any) (op : Operation) :
    (Call.operation o op).Succeeds m := by
  have hrun : (Call.operation o op).run.run m =
      .ok (some ((m.objects[o.index]?.map (·.operations.length)).getD 0),
        { m with objects := m.objects.modify o.index fun n =>
          { n with operations := n.operations ++ [op] } }) := by
    have hmodify := run_modifyObject ho fun n => { n with operations := n.operations ++ [op] }
    simp [Call.run, Builder.operation, hmodify]
  refine succeeds_of_modifyObject hrun rfl rfl rfl (fun _ => by rfl) fun n k hk => ?_
  grind [DomainObject.handles, DomainObject.signatures, handles]

theorem succeeds_repository {o : ObjectId} (ho : m.Holds o.any) (r : Repository) :
    (Call.repository o r).Succeeds m := by
  refine succeeds_of_modifyObject (run_silent (run_modifyObject ho _)) rfl rfl rfl
    (fun _ => by rfl) fun n k hk => ?_
  grind [DomainObject.handles, DomainObject.signatures, handles]

/-- The calls that set a part that entities alone have. -/
theorem succeeds_of_modifyEntity {o : ObjectId} (ho : m.Holds o.any)
    {write : EntityData → EntityData}
    (hrun : call.run = Builder.silent (Builder.modifyEntity o write))
    (hadds : call.adds = none) (hhome : call.home = none) (hmap : call.map = none)
    (hwrite : ∀ data, ∀ k ∈ (ObjectKind.entity (write data)).handles,
      k ∈ (ObjectKind.entity data).handles ∨ k ∈ call.handles) : call.Succeeds m := by
  refine succeeds_of_modifyObject (hrun ▸ run_silent (run_modifyObject ho _)) hadds hhome hmap
    (fun n => ?_) fun n k hk => ?_
  · cases n.kind <;> rfl
  · cases hkind : n.kind with
    | entity data =>
      rw [hkind] at hk
      have := hwrite data
      grind [DomainObject.handles, DomainObject.signatures]
    | valueObject | domainEvent | enum _ =>
      rw [hkind] at hk
      exact .inl hk

theorem succeeds_entityMapping {o : ObjectId} (ho : m.Holds o.any) (mapping : EntityMapping) :
    (Call.entityMapping o mapping).Succeeds m := by
  refine succeeds_of_modifyEntity ho rfl rfl rfl rfl fun data k hk => ?_
  grind [ObjectKind.handles, handles]

theorem succeeds_entityUses {o : ObjectId} (ho : m.Holds o.any) (uses : EntityUses) :
    (Call.entityUses o uses).Succeeds m := by
  refine succeeds_of_modifyEntity ho rfl rfl rfl rfl fun data k hk => ?_
  grind [ObjectKind.handles, handles]

/-! ### Calls about attributes and references -/

/-- The calls that add an attribute. -/
theorem succeeds_of_attribute {o : ObjectId} (ho : m.Holds o.any) {name type : String} {key : Bool}
    (hrun : call.run = Builder.position (Builder.pushAttribute o name type key))
    (hadds : call.adds = some Arena.attribute) (hhome : call.home = none) (hmap : call.map = none)
    (hpasses : o.any ∈ call.handles) : call.Succeeds m := by
  refine succeeds_of_add hrun (run_add (run_push ..) (run_modifyObject ?_ _)) hadds ?_ ?_ ?_
  · exact ho
  · intro other
    cases other <;> simp [Model.size]
  · intro P hP hpassed hnew
    exact { hP with
      attributes := storesOnly_append hP.attributes
        (List.forall_mem_singleton.mpr (hpassed _ hpasses))
      objects := storesOnly_modify hP.objects (fun n k hk => by
        grind [DomainObject.handles, DomainObject.signatures, anyHandles]) _ }
  · intro homes maps hw _
    rw [hhome, hmap]
    simpa [Model.size] using hw.addAttribute ho name type key

theorem succeeds_attributeUses {a : AttributeId} (ha : m.Holds a.any) (binder used : String) :
    (Call.attributeUses a binder used).Succeeds m := by
  refine succeeds_of_edit (run_silent (run_modifyAttribute ha _)) rfl rfl rfl
    { Model.SameWiring.refl m with attributes := map_modify (fun _ => by rfl) _ _ }
    fun P hP _ => { hP with attributes := storesOnly_modify hP.attributes ?_ _ }
  exact fun _ _ hk => .inl hk

theorem succeeds_reference {o : ObjectId} (ho : m.Holds o.any) (name : String) (target : ObjectId)
    (wrapper : CollectionKind) : (Call.reference o name target wrapper).Succeeds m := by
  refine succeeds_of_add rfl (run_add (run_push ..) (run_modifyObject ?_ _)) rfl ?_ ?_ ?_
  · exact ho
  · intro other
    cases other <;> simp [Model.size]
  · intro P hP hpassed hnew
    exact { hP with
      references := storesOnly_append hP.references (by
        grind [Reference.handles, anyHandles, handles])
      objects := storesOnly_modify hP.objects (fun n k hk => by
        grind [DomainObject.handles, DomainObject.signatures, anyHandles]) _ }
  · intro homes maps hw _
    simpa [home, map, Model.size] using hw.addReference ho name target wrapper

/-! ### Calls about anti-corruption declarations -/

theorem succeeds_antiCorruption {c : ContextId} (hc : m.Holds c.any) (name : String)
    (kind : AntiCorruptionKind) (mapped : ContextId) (a : AggregateId) :
    (Call.antiCorruption c name kind mapped a).Succeeds m := by
  refine succeeds_of_add rfl (run_add (run_push ..) (run_modifyContext ?_ _)) rfl ?_ ?_ ?_
  · exact hc
  · intro other
    cases other <;> simp [Model.size]
  · intro P hP hpassed hnew
    exact { hP with
      antiCorruptions := storesOnly_append hP.antiCorruptions (by
        grind [AntiCorruption.handles, anyHandles, handles])
      contexts := storesOnly_modify hP.contexts (fun n k hk => by
        grind [BoundedContext.handles, anyHandles]) _ }
  · intro homes maps hw _
    simpa [home, map, Model.size] using hw.addAntiCorruption hc name kind mapped a

theorem succeeds_translate {h : AntiCorruptionId} (hh : m.Holds h.any) (name type : String)
    {a : AttributeId} (ha : m.Holds a.any) : (Call.translate h name type a).Succeeds m := by
  have hlt : a.index < m.attributes.length := ha
  have hmem := List.getElem_mem hlt
  have hget := List.getElem?_eq_getElem hlt
  generalize m.attributes[a.index] = linked at hmem hget
  have hrun : (Builder.translate h name type a).run m =
      (Builder.modifyAntiCorruption h fun n => { n with
        attributes := n.attributes ++ [⟨name, type, some linked.owner, some a, none⟩] }).run m := by
    simp [Builder.translate, hget]
  refine succeeds_of_edit (run_silent (hrun.trans (run_modifyAntiCorruption hh _))) rfl rfl rfl
    { Model.SameWiring.refl m with antiCorruptions := map_modify (fun _ => by rfl) _ _ }
    fun P hP hpassed => { hP with antiCorruptions := storesOnly_modify hP.antiCorruptions ?_ _ }
  intro n k hk
  -- the object of the translated attribute is not passed, but it is stored with the attribute
  have hentity := hP.attributes linked hmem _ (List.mem_singleton_self _)
  grind [AntiCorruption.handles, anyHandles, handles]

theorem succeeds_interInvariant {h : AntiCorruptionId} (hh : m.Holds h.any) (name : String)
    (e : Expr) : (Call.interInvariant h name e).Succeeds m := by
  refine succeeds_of_edit (run_silent (run_modifyAntiCorruption hh _)) rfl rfl rfl
    { Model.SameWiring.refl m with antiCorruptions := map_modify (fun _ => by rfl) _ _ }
    fun P hP _ => { hP with antiCorruptions := storesOnly_modify hP.antiCorruptions ?_ _ }
  exact fun _ _ hk => .inl hk

/-! ### Calls about context maps -/

theorem succeeds_contextMap (m : Model) (name : String) (type : Option ContextMapType)
    (contexts : List ContextId) : (Call.contextMap name type contexts).Succeeds m := by
  refine succeeds_of_add rfl rfl rfl ?_ ?_ ?_
  · intro other
    cases other <;> simp [Model.size]
  · intro P hP hpassed _
    exact { hP with
      contextMaps := storesOnly_append hP.contextMaps (by
        grind [ContextMap.handles, anyHandles, handles]) }
  · intro homes maps hw _
    simpa [home, map] using hw.addContextMap name type contexts

/-- The calls that add a relationship. -/
theorem succeeds_of_relationship {h : ContextMapId} (hh : m.Holds h.any) {r : Relationship}
    (hrun : call.run = Builder.position (Builder.relationship h r))
    (hadds : call.adds = some .relationship) (hhome : call.home = none) (hmap : call.map = some h)
    (hpasses : ∀ k ∈ r.handles, k ∈ call.handles) : call.Succeeds m := by
  refine succeeds_of_add hrun (run_add (run_push ..) (run_modifyContextMap ?_ _)) hadds ?_ ?_ ?_
  · exact hh
  · intro other
    cases other <;> simp [Model.size]
  · intro P hP hpassed hnew
    exact { hP with
      relationships := storesOnly_append hP.relationships fun k hk => hpassed k (hpasses k hk)
      contextMaps := storesOnly_modify hP.contextMaps (fun n k hk => by
        grind [ContextMap.handles, anyHandles]) _ }
  · intro homes maps hw _
    rw [hhome, hmap]
    simpa [Model.size] using hw.addRelationship hh r

/-! ### All calls -/

/-- **A call succeeds if the model holds the handles that it is given.** -/
theorem succeeds (call : Call) (hheld : ∀ h ∈ call.handles, m.Holds h) : call.Succeeds m := by
  cases call with
  | context name type => exact succeeds_context m name type
  | owner c team => exact succeeds_owner (hheld _ (by simp [handles])) team
  | realizes c realized => exact succeeds_realizes (hheld _ (by simp [handles])) realized
  | module c name => exact succeeds_module (hheld _ (by simp [handles])) name
  | aggregate c name => exact succeeds_aggregate (hheld _ (by simp [handles])) name
  | moduleAggregate h c name =>
    exact succeeds_moduleAggregate (hheld _ (by simp [handles])) c name
  | invariant a name e => exact succeeds_invariant (hheld _ (by simp [handles])) name e
  | object a name kind root =>
    exact succeeds_of_object (hheld _ (by simp [handles])) rfl rfl rfl rfl fun _ hk => hk
  | entity a name | rootEntity a name | valueObject a name | domainEvent a name
  | lifecycleEnum a name =>
    exact succeeds_of_object (hheld _ (by simp [handles])) rfl rfl rfl rfl fun _ hk => hk
  | plainAttribute o name type | keyAttribute o name type =>
    exact succeeds_of_attribute (hheld _ (by simp [handles])) rfl rfl rfl rfl (by simp [handles])
  | attributeUses a binder used =>
    exact succeeds_attributeUses (hheld _ (by simp [handles])) binder used
  | reference o name target wrapper =>
    exact succeeds_reference (hheld _ (by simp [handles])) name target wrapper
  | constructor o c => exact succeeds_constructor (hheld _ (by simp [handles])) c
  | operation o op => exact succeeds_operation (hheld _ (by simp [handles])) op
  | repository o r => exact succeeds_repository (hheld _ (by simp [handles])) r
  | entityMapping o mapping => exact succeeds_entityMapping (hheld _ (by simp [handles])) mapping
  | entityUses o uses => exact succeeds_entityUses (hheld _ (by simp [handles])) uses
  | antiCorruption c name kind mapped a =>
    exact succeeds_antiCorruption (hheld _ (by simp [handles])) name kind mapped a
  | translate h name type a =>
    exact succeeds_translate (hheld _ (by simp [handles])) name type (hheld _ (by simp [handles]))
  | interInvariant h name e => exact succeeds_interInvariant (hheld _ (by simp [handles])) name e
  | contextMap name type contexts => exact succeeds_contextMap m name type contexts
  | relationship h r =>
    exact succeeds_of_relationship (hheld _ (by simp [handles])) rfl rfl rfl rfl
      fun _ hk => List.mem_cons_of_mem _ hk
  | upstreamDownstream h a b | partnership h a b =>
    exact succeeds_of_relationship (hheld h.any (by simp [handles])) rfl rfl rfl rfl
      fun _ hk => List.mem_cons_of_mem _ hk

end

end Call

end DomainModel
