import DomainModel.Model.Builder
import DomainModel.Proofs.Building.Wiring
import DomainModel.Proofs.Numbering

/-! # How a model grows

A call leaves the wiring as it is, or adds one node and its handle to the list of its parent. For
each kind of node, a wired model with one more node of that kind is wired. -/

namespace DomainModel

namespace Model

variable {m m' : Model} {homes : List ContextId} {maps : List ContextMapId}

theorem value_contextAggregates (m : Model) (c : ContextId) :
    (m.contextAggregates c).value = (m.context c).value.aggregates ++
      (m.context c).value.modules.flatMap fun h => (m.module h).value.aggregates := by
  simp [contextAggregates]

/-! ### The aggregates of a context -/

theorem aggregatesOf_congr
    (howned : ∀ c, (m'.context c).value.aggregates = (m.context c).value.aggregates)
    (hmodules : ∀ c, (m'.context c).value.modules = (m.context c).value.modules)
    (hin : ∀ h, (m'.module h).value.aggregates = (m.module h).value.aggregates)
    (c : Option ContextId) : m'.aggregatesOf c = m.aggregatesOf c := by
  cases c with
  | none => rfl
  | some c => simp only [aggregatesOf, value_contextAggregates, howned, hmodules, hin]

/-- A further module without aggregates changes nothing. -/
theorem aggregatesOf_add_module {new : ModuleId} {owner : ContextId}
    (howned : ∀ c, (m'.context c).value.aggregates = (m.context c).value.aggregates)
    (hmodules : ∀ c, (m'.context c).value.modules =
      (m.context c).value.modules ++ if owner = c then [new] else [])
    (hin : ∀ h, (m'.module h).value.aggregates = (m.module h).value.aggregates)
    (hnew : (m.module new).value.aggregates = []) (c : Option ContextId) :
    m'.aggregatesOf c = m.aggregatesOf c := by
  cases c with
  | none => rfl
  | some c =>
    simp only [aggregatesOf, value_contextAggregates, howned, hmodules, hin, List.flatMap_append]
    by_cases h : owner = c <;> simp [h, hnew]

theorem aggregatesOf_add_owned {new : AggregateId} {owner : ContextId}
    (howned : ∀ c, (m'.context c).value.aggregates =
      (m.context c).value.aggregates ++ if owner = c then [new] else [])
    (hmodules : ∀ c, (m'.context c).value.modules = (m.context c).value.modules)
    (hin : ∀ h, (m'.module h).value.aggregates = (m.module h).value.aggregates)
    (c : Option ContextId) :
    (m'.aggregatesOf c).Perm (m.aggregatesOf c ++ if some owner = c then [new] else []) := by
  cases c with
  | none => simp [aggregatesOf]
  | some c =>
    simp only [aggregatesOf, value_contextAggregates, howned, hmodules, hin, Option.some.injEq,
      List.append_assoc]
    exact List.perm_append_comm.append_left _

/-- To put an item behind one list among others adds it as often as that list occurs. -/
theorem flatMap_append_perm {α β : Type} [DecidableEq α] (f : α → List β) (k : α) (b : β)
    (as : List α) :
    (as.flatMap fun a => f a ++ if k = a then [b] else []).Perm
      (as.flatMap f ++ List.replicate (as.count k) b) := by
  induction as with
  | nil => rfl
  | cons a as ih =>
    rw [List.flatMap_cons, List.flatMap_cons, List.count_cons]
    refine (ih.append_left _).trans ?_
    by_cases h : k = a
    · simp only [h, if_true, BEq.rfl, List.replicate_succ, List.append_assoc,
        List.singleton_append]
      exact List.perm_middle.symm.append_left _
    · simp [h, Ne.symm h]

theorem aggregatesOf_add_in_module {new : AggregateId} {parent : ModuleId} {owner : ContextId}
    (howned : ∀ c, (m'.context c).value.aggregates = (m.context c).value.aggregates)
    (hmodules : ∀ c, (m'.context c).value.modules = (m.context c).value.modules)
    (hin : ∀ h, (m'.module h).value.aggregates =
      (m.module h).value.aggregates ++ if parent = h then [new] else [])
    (honly : OnlyIn (fun c => (m.context c).value.modules) parent owner)
    (c : Option ContextId) :
    (m'.aggregatesOf c).Perm (m.aggregatesOf c ++ if some owner = c then [new] else []) := by
  cases c with
  | none => simp [aggregatesOf]
  | some c =>
    have hcount : List.replicate ((m.context c).value.modules.count parent) new =
        if some owner = some c then [new] else [] := by
      by_cases h : owner = c
      · rw [← h, honly.once]
        simp
      · rw [List.count_eq_zero.mpr (honly.elsewhere c (Ne.symm h))]
        simp [h]
    simp only [aggregatesOf, value_contextAggregates, howned, hmodules, hin, List.append_assoc]
    rw [← hcount]
    exact (flatMap_append_perm ..).append_left _

/-! ### The same wiring -/

theorem map_comp_eq {α β γ : Type} {field : α → β} {as as' : List α}
    (h : as'.map field = as.map field) (part : β → γ) :
    as'.map (fun a => part (field a)) = as.map fun a => part (field a) := by
  have := congrArg (List.map part) h
  rwa [List.map_map, List.map_map] at this

/-- The links between parents and children are the same. -/
structure SameWiring (m m' : Model) : Prop where
  contexts : m'.contexts.map (fun c => (c.aggregates, c.modules, c.antiCorruptions)) =
    m.contexts.map fun c => (c.aggregates, c.modules, c.antiCorruptions)
  modules : m'.modules.map (·.aggregates) = m.modules.map (·.aggregates)
  aggregates : m'.aggregates.map (fun a => (a.context, a.objects)) =
    m.aggregates.map fun a => (a.context, a.objects)
  objects : m'.objects.map (fun o => (o.aggregate, o.attributes, o.references)) =
    m.objects.map fun o => (o.aggregate, o.attributes, o.references)
  attributes : m'.attributes.map (·.owner) = m.attributes.map (·.owner)
  references : m'.references.map (·.owner) = m.references.map (·.owner)
  antiCorruptions : m'.antiCorruptions.map (·.owner) = m.antiCorruptions.map (·.owner)
  contextMaps : m'.contextMaps.map (·.relationships) = m.contextMaps.map (·.relationships)
  relationships : m'.relationships.length = m.relationships.length

theorem SameWiring.refl (m : Model) : SameWiring m m :=
  ⟨rfl, rfl, rfl, rfl, rfl, rfl, rfl, rfl, rfl⟩

theorem length_eq_of_map_eq {α β : Type} {field : α → β} {as as' : List α}
    (h : as'.map field = as.map field) : as'.length = as.length := by
  rw [← List.length_map field, h, List.length_map]

theorem SameWiring.size (h : SameWiring m m') (arena : Arena) : m'.size arena = m.size arena := by
  cases arena with
  | context => exact length_eq_of_map_eq h.contexts
  | module => exact length_eq_of_map_eq h.modules
  | aggregate => exact length_eq_of_map_eq h.aggregates
  | object => exact length_eq_of_map_eq h.objects
  | «attribute» => exact length_eq_of_map_eq h.attributes
  | reference => exact length_eq_of_map_eq h.references
  | antiCorruption => exact length_eq_of_map_eq h.antiCorruptions
  | contextMap => exact length_eq_of_map_eq h.contextMaps
  | relationship => exact h.relationships
  | expr => rfl

theorem SameWiring.wired (h : SameWiring m m') (hw : m.Wired homes maps) :
    m'.Wired homes maps where
  homes_length := hw.homes_length.trans (h.size .module).symm
  maps_length := hw.maps_length.trans h.relationships.symm
  modules := hw.modules.congr
    (Lookup.field_node_congr BoundedContext.modules (map_comp_eq h.contexts fun p => p.2.1)) rfl
  relationships := hw.relationships.congr
    (Lookup.field_node_congr ContextMap.relationships h.contextMaps) rfl
  objects := hw.objects.congr
    (Lookup.field_node_congr Aggregate.objects (map_comp_eq h.aggregates Prod.snd))
    (map_comp_eq h.objects Prod.fst)
  attributes := hw.attributes.congr
    (Lookup.field_node_congr DomainObject.attributes (map_comp_eq h.objects fun p => p.2.1))
    h.attributes
  references := hw.references.congr
    (Lookup.field_node_congr DomainObject.references (map_comp_eq h.objects fun p => p.2.2))
    h.references
  antiCorruptions := hw.antiCorruptions.congr
    (Lookup.field_node_congr BoundedContext.antiCorruptions (map_comp_eq h.contexts fun p => p.2.2))
    h.antiCorruptions
  aggregates hfew := by
    have hsame := aggregatesOf_congr
      (Lookup.field_node_congr BoundedContext.aggregates (map_comp_eq h.contexts Prod.fst))
      (Lookup.field_node_congr BoundedContext.modules (map_comp_eq h.contexts fun p => p.2.1))
      (Lookup.field_node_congr Module.aggregates h.modules)
    refine (hw.aggregates ?_).congr hsame (map_comp_eq h.aggregates Prod.fst)
    rwa [← length_eq_of_map_eq h.modules]

/-- Numbering the expressions keeps the wiring. -/
theorem sameWiring_numbered (m : Model) : SameWiring m m.numbered :=
  { SameWiring.refl m with
    aggregates := map_numberedList (fun _ _ => by rfl) _ _
    objects := map_numberedList (fun _ _ => by rfl) _ _
    antiCorruptions := map_numberedList (fun _ _ => by rfl) _ _ }

/-! ### One more node -/

theorem Wired.addContext (hw : m.Wired homes maps) (name : String) (type : ContextType) :
    Wired { m with contexts := m.contexts ++ [⟨name, type, [], [], [], [], none⟩] } homes maps :=
  { hw with
    modules := hw.modules.congr (Lookup.field_node_append BoundedContext.modules rfl) rfl
    antiCorruptions := hw.antiCorruptions.congr
      (Lookup.field_node_append BoundedContext.antiCorruptions rfl) rfl
    aggregates := fun hfew => (hw.aggregates hfew).congr (aggregatesOf_congr
      (Lookup.field_node_append BoundedContext.aggregates rfl)
      (Lookup.field_node_append BoundedContext.modules rfl) fun _ => rfl) rfl }

theorem Wired.addModule (hw : m.Wired homes maps) {c : ContextId} (hc : m.Holds c.any)
    (name : String) :
    Wired { m with
      modules := m.modules ++ [⟨name, []⟩]
      contexts := m.contexts.modify c.index fun n =>
        { n with modules := n.modules ++ [.ofIndex m.modules.length] } } (homes ++ [c]) maps := by
  have hmodules := Lookup.field_node_modify BoundedContext.modules c hc
    (fun n => { n with modules := n.modules ++ [.ofIndex m.modules.length] })
    (.ofIndex m.modules.length) fun _ => rfl
  exact {
    homes_length := by simp [hw.homes_length]
    maps_length := hw.maps_length
    modules := by
      refine hw.modules.add c fun p => .of_eq ?_
      rw [hw.homes_length]
      exact hmodules p
    relationships := hw.relationships
    objects := hw.objects
    attributes := hw.attributes
    references := hw.references
    antiCorruptions := hw.antiCorruptions.congr
      (Lookup.field_node_write BoundedContext.antiCorruptions fun _ => by rfl) rfl
    aggregates := fun hfew => by
      have hlt : m.modules.length < UInt32.size := by
        rw [List.length_append] at hfew
        exact hfew
      refine (hw.aggregates (Nat.le_of_lt hlt)).congr (aggregatesOf_add_module
        (Lookup.field_node_write BoundedContext.aggregates fun _ => by rfl)
        hmodules (Lookup.field_node_append Module.aggregates rfl) ?_) rfl
      unfold module
      rw [Lookup.value_node, Handle.index_ofIndex hlt, List.getElem?_eq_none (Nat.le_refl _)]
      rfl }

theorem Wired.addAggregate (hw : m.Wired homes maps) {c : ContextId} (hc : m.Holds c.any)
    (name : String) :
    Wired { m with
      aggregates := m.aggregates ++ [⟨name, some c, [], []⟩]
      contexts := m.contexts.modify c.index fun n =>
        { n with aggregates := n.aggregates ++ [.ofIndex m.aggregates.length] } } homes maps :=
  { hw with
    modules := hw.modules.congr
      (Lookup.field_node_write BoundedContext.modules fun _ => by rfl) rfl
    antiCorruptions := hw.antiCorruptions.congr
      (Lookup.field_node_write BoundedContext.antiCorruptions fun _ => by rfl) rfl
    objects := hw.objects.congr (Lookup.field_node_append Aggregate.objects rfl) rfl
    aggregates := fun hfew => by
      refine (hw.aggregates hfew).addNode _ (aggregatesOf_add_owned ?_ ?_ fun _ => rfl)
      · exact Lookup.field_node_modify BoundedContext.aggregates c hc _ _ fun _ => by rfl
      · exact Lookup.field_node_write BoundedContext.modules fun _ => by rfl }

theorem Wired.addModuleAggregate (hw : m.Wired homes maps) {h : ModuleId} (hh : m.Holds h.any)
    {c : ContextId} {i : Nat} (hhome : homes[i]? = some c) (hi : h = .ofIndex i) (name : String) :
    Wired { m with
      aggregates := m.aggregates ++ [⟨name, some c, [], []⟩]
      modules := m.modules.modify h.index fun n =>
        { n with aggregates := n.aggregates ++ [.ofIndex m.aggregates.length] } } homes maps :=
  { hw with
    homes_length := by simp [hw.homes_length]
    objects := hw.objects.congr (Lookup.field_node_append Aggregate.objects rfl) rfl
    aggregates := fun hfew => by
      rw [List.length_modify] at hfew
      have hlt : i < UInt32.size := by
        have := (List.getElem?_eq_some_iff.mp hhome).1
        have := hw.homes_length
        omega
      have honly : OnlyIn (fun c => (m.context c).value.modules) h c := by
        refine onlyIn_of_files hw.modules (by rwa [hw.homes_length]) ?_
        rw [hi, Handle.index_ofIndex hlt, hhome]
      exact (hw.aggregates hfew).addNode _ (aggregatesOf_add_in_module (fun _ => rfl) (fun _ => rfl)
        (Lookup.field_node_modify Module.aggregates h hh _ _ fun _ => by rfl) honly) }

theorem Wired.addObject (hw : m.Wired homes maps) {a : AggregateId} (ha : m.Holds a.any)
    (name : String) (kind : ObjectKind) (root : Bool) :
    Wired { m with
      objects := m.objects ++ [⟨name, a, kind, root, [], [], none, none, []⟩]
      aggregates := m.aggregates.modify a.index fun n =>
        { n with objects := n.objects ++ [.ofIndex m.objects.length] } } homes maps :=
  { hw with
    objects := hw.objects.addNode _ fun p => .of_eq
      (Lookup.field_node_modify Aggregate.objects a ha _ _ (fun _ => by rfl) p)
    attributes := hw.attributes.congr (Lookup.field_node_append DomainObject.attributes rfl) rfl
    references := hw.references.congr (Lookup.field_node_append DomainObject.references rfl) rfl
    aggregates := fun hfew => (hw.aggregates hfew).congr (fun _ => rfl)
      (map_modify (fun _ => by rfl) _ _) }

theorem Wired.addAttribute (hw : m.Wired homes maps) {o : ObjectId} (ho : m.Holds o.any)
    (name type : String) (key : Bool) :
    Wired { m with
      attributes := m.attributes ++ [⟨name, type, o, key, none⟩]
      objects := m.objects.modify o.index fun n =>
        { n with attributes := n.attributes ++ [.ofIndex m.attributes.length] } } homes maps :=
  { hw with
    objects := hw.objects.congr (fun _ => rfl) (map_modify (fun _ => by rfl) _ _)
    attributes := hw.attributes.addNode _ fun p => .of_eq
      (Lookup.field_node_modify DomainObject.attributes o ho _ _ (fun _ => by rfl) p)
    references := hw.references.congr
      (Lookup.field_node_write DomainObject.references fun _ => by rfl) rfl }

theorem Wired.addReference (hw : m.Wired homes maps) {o : ObjectId} (ho : m.Holds o.any)
    (name : String) (target : Option ObjectId) (wrapper : CollectionKind) :
    Wired { m with
      references := m.references ++ [⟨name, o, target, wrapper⟩]
      objects := m.objects.modify o.index fun n =>
        { n with references := n.references ++ [.ofIndex m.references.length] } } homes maps :=
  { hw with
    objects := hw.objects.congr (fun _ => rfl) (map_modify (fun _ => by rfl) _ _)
    attributes := hw.attributes.congr
      (Lookup.field_node_write DomainObject.attributes fun _ => by rfl) rfl
    references := hw.references.addNode _ fun p => .of_eq
      (Lookup.field_node_modify DomainObject.references o ho _ _ (fun _ => by rfl) p) }

theorem Wired.addAntiCorruption (hw : m.Wired homes maps) {c : ContextId} (hc : m.Holds c.any)
    (name : String) (kind : AntiCorruptionKind) (mapped : Option ContextId)
    (a : Option AggregateId) :
    Wired { m with
      antiCorruptions := m.antiCorruptions ++ [⟨name, kind, c, mapped, a, [], []⟩]
      contexts := m.contexts.modify c.index fun n =>
        { n with antiCorruptions := n.antiCorruptions ++ [.ofIndex m.antiCorruptions.length] } }
      homes maps :=
  { hw with
    modules := hw.modules.congr
      (Lookup.field_node_write BoundedContext.modules fun _ => by rfl) rfl
    antiCorruptions := hw.antiCorruptions.addNode _ fun p => .of_eq
      (Lookup.field_node_modify BoundedContext.antiCorruptions c hc _ _ (fun _ => by rfl) p)
    aggregates := fun hfew => (hw.aggregates hfew).congr (aggregatesOf_congr
      (Lookup.field_node_write BoundedContext.aggregates fun _ => by rfl)
      (Lookup.field_node_write BoundedContext.modules fun _ => by rfl)
      fun _ => rfl) rfl }

theorem Wired.addContextMap (hw : m.Wired homes maps) (name : String)
    (type : Option ContextMapType) (contexts : List ContextId) :
    Wired { m with contextMaps := m.contextMaps ++ [⟨name, type, contexts, []⟩] } homes maps :=
  { hw with
    relationships := hw.relationships.congr
      (Lookup.field_node_append ContextMap.relationships rfl) rfl }

theorem Wired.addRelationship (hw : m.Wired homes maps) {h : ContextMapId} (hh : m.Holds h.any)
    (r : Relationship) :
    Wired { m with
      relationships := m.relationships ++ [r]
      contextMaps := m.contextMaps.modify h.index fun n =>
        { n with relationships := n.relationships ++ [.ofIndex m.relationships.length] } }
      homes (maps ++ [h]) :=
  { hw with
    maps_length := by simp [hw.maps_length]
    relationships := by
      refine hw.relationships.add h fun p => .of_eq ?_
      rw [hw.maps_length]
      exact Lookup.field_node_modify ContextMap.relationships h hh _ _ (fun _ => by rfl) p }

end Model

end DomainModel
