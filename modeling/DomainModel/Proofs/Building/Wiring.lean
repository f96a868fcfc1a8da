import DomainModel.Model.Navigation
import DomainModel.Model.Numbering
import DomainModel.Proofs.Building.Filing

/-! # Wiring

A model is wired upwards, where an object names its aggregate, and downwards, where the aggregate
lists the object. The two agree (`Model.LinksAgree`) if every node that has a parent is listed once,
by the parent that it names, and by no other.

`Model.Wired` is the form of this that every call preserves, whatever the number of nodes. Modules
and relationships do not name their parents, so the history of the model has to: `homes` are the
contexts in which the modules were declared, `maps` the context maps of the relationships. -/

namespace DomainModel

/-! ### Fields of nodes -/

theorem map_modify {α β : Type} {field : α → β} {write : α → α}
    (hwrite : ∀ a, field (write a) = field a) (as : List α) (i : Nat) :
    (as.modify i write).map field = as.map field := by
  refine List.ext_getElem? fun j => ?_
  rw [List.getElem?_map, List.getElem?_modify, List.getElem?_map]
  cases as[j]? with
  | none => rfl
  | some a => by_cases h : i = j <;> simp [h, hwrite]

namespace Lookup

variable {α β : Type} [Inhabited α] {arena : Arena} {nodes nodes' : List α}

section

variable (field : α → List β)

theorem value_node (h : Handle arena) : (node nodes h).value = nodes[h.index]?.getD default := by
  unfold node
  cases nodes[h.index]? <;> rfl

/-- A field of a node depends on that field of the arena alone. -/
theorem field_node_congr (hfield : nodes'.map field = nodes.map field) (h : Handle arena) :
    field (node nodes' h).value = field (node nodes h).value := by
  have hget : nodes'[h.index]?.map field = nodes[h.index]?.map field := by
    rw [← List.getElem?_map, ← List.getElem?_map, hfield]
  rw [value_node, value_node, ← Option.getD_map field, hget, Option.getD_map]

/-- A new node whose field is as that of a missing one changes no field. -/
theorem field_node_append {a : α} (ha : field a = field default) (h : Handle arena) :
    field (node (nodes ++ [a]) h).value = field (node nodes h).value := by
  rw [value_node, value_node, List.getElem?_append]
  split
  · rfl
  · next hlt =>
    rw [List.getElem?_eq_none (Nat.le_of_not_lt hlt)]
    cases h.index - nodes.length with
    | zero => exact ha
    | succ i => rfl

/-- To write to other fields leaves a field as it is. -/
theorem field_node_write {write : α → α} (hwrite : ∀ a, field (write a) = field a) {i : Nat}
    (h : Handle arena) : field (node (nodes.modify i write) h).value = field (node nodes h).value :=
  field_node_congr field (map_modify hwrite nodes i) h

/-- To put an item behind a list of one node puts it behind the list of that node's handle. -/
theorem field_node_modify (parent : Handle arena) (hparent : parent.index < nodes.length)
    (write : α → α) (b : β) (hwrite : ∀ a, field (write a) = field a ++ [b]) (h : Handle arena) :
    field (node (nodes.modify parent.index write) h).value =
      field (node nodes h).value ++ if parent = h then [b] else [] := by
  rw [value_node, value_node, List.getElem?_modify]
  by_cases heq : parent = h
  · obtain rfl := heq
    simp [List.getElem?_eq_getElem hparent, hwrite]
  · have hindex : parent.index ≠ h.index := fun h' => heq (Handle.index_inj.mp h')
    simp [heq, hindex]

end

theorem getElem?_map_field {γ : Type} {field : α → γ} {h : Handle arena}
    (hh : h.index < nodes.length) :
    (nodes.map field)[h.index]? = some (field (node nodes h).value) := by
  rw [value_node, List.getElem?_map, List.getElem?_eq_getElem hh]
  rfl

end Lookup

/-! ### Agreement -/

namespace Model

/-- The aggregates of a context; without a context there are none. -/
def aggregatesOf (m : Model) : Option ContextId → List AggregateId
  | none => []
  | some c => (m.contextAggregates c).value

/-- **The upward and the downward links agree.** -/
structure LinksAgree (m : Model) : Prop where
  aggregates : ∀ a : AggregateId, m.Holds a.any →
    ∃ c, (m.aggregate a).value.context = some c ∧
      OnlyIn (fun c => (m.contextAggregates c).value) a c
  objects : ∀ o : ObjectId, m.Holds o.any →
    OnlyIn (fun a => (m.aggregate a).value.objects) o (m.object o).value.aggregate
  attributes : ∀ b : AttributeId, m.Holds b.any →
    OnlyIn (fun o => (m.object o).value.attributes) b (m.attributeOf b).value.owner
  references : ∀ r : ReferenceId, m.Holds r.any →
    OnlyIn (fun o => (m.object o).value.references) r (m.reference r).value.owner
  modules : ∀ h : ModuleId, m.Holds h.any →
    ∃ c, OnlyIn (fun c => (m.context c).value.modules) h c
  antiCorruptions : ∀ ac : AntiCorruptionId, m.Holds ac.any →
    OnlyIn (fun c => (m.context c).value.antiCorruptions) ac (m.antiCorruption ac).value.owner
  relationships : ∀ r : RelationshipId, m.Holds r.any →
    ∃ h, OnlyIn (fun h => (m.contextMap h).value.relationships) r h

/-- The nodes that have a parent have a handle each. -/
def Addressable (m : Model) : Prop :=
  ∀ arena, arena ≠ .context → arena ≠ .contextMap → m.size arena ≤ UInt32.size

/-- The wiring that calls preserve. -/
structure Wired (m : Model) (homes : List ContextId) (maps : List ContextMapId) : Prop where
  homes_length : homes.length = m.modules.length
  maps_length : maps.length = m.relationships.length
  modules : Files (fun c => (m.context c).value.modules) homes
  relationships : Files (fun h => (m.contextMap h).value.relationships) maps
  objects : Files (fun a => (m.aggregate a).value.objects) (m.objects.map (·.aggregate))
  attributes : Files (fun o => (m.object o).value.attributes) (m.attributes.map (·.owner))
  references : Files (fun o => (m.object o).value.references) (m.references.map (·.owner))
  antiCorruptions :
    Files (fun c => (m.context c).value.antiCorruptions) (m.antiCorruptions.map (·.owner))
  /-- An aggregate may be added to a module, which has to be told from the other ones. -/
  aggregates : m.modules.length ≤ UInt32.size →
    Files m.aggregatesOf (m.aggregates.map (·.context))

/-! ### Wired models agree -/

section

variable {m : Model} {homes : List ContextId} {maps : List ContextMapId}

/-- Children without upward links are filed once each if they have a handle each. -/
theorem exists_onlyIn_iff {arena : Arena} {π : Type} [DecidableEq π]
    {list : π → List (Handle arena)} {ups : List π} (hfiles : Files list ups) :
    (∀ h : Handle arena, h.index < ups.length → ∃ p, OnlyIn list h p) ↔
      ups.length ≤ UInt32.size :=
  ⟨length_le_of_onlyIn hfiles, fun hlength _ hh =>
    ⟨_, onlyIn_of_files hfiles hlength (List.getElem?_eq_getElem hh)⟩⟩

/-- Children are filed once each, with the parents that they name, if they have a handle each. -/
theorem onlyIn_iff {α : Type} [Inhabited α] {arena : Arena} {π : Type} [DecidableEq π]
    {list : π → List (Handle arena)} {nodes : List α} {up : α → π}
    (hfiles : Files list (nodes.map up)) :
    (∀ h : Handle arena, h.index < nodes.length →
      OnlyIn list h (up (Lookup.node nodes h).value)) ↔ nodes.length ≤ UInt32.size := by
  constructor
  · intro h
    rw [← List.length_map up]
    refine length_le_of_onlyIn hfiles fun child hchild => ⟨_, h child ?_⟩
    rwa [List.length_map] at hchild
  · intro hlength h hh
    refine onlyIn_of_files hfiles ?_ (Lookup.getElem?_map_field hh)
    rwa [List.length_map]

theorem onlyIn_aggregatesOf {a : AggregateId} {c : Option ContextId} :
    OnlyIn m.aggregatesOf a c ↔
      ∃ d, c = some d ∧ OnlyIn (fun c => (m.contextAggregates c).value) a d := by
  constructor
  · intro h
    cases c with
    | none => exact absurd h.once (by simp [aggregatesOf])
    | some d =>
      refine ⟨d, rfl, h.once, fun e he => h.elsewhere (some e) ?_⟩
      simpa using he
  · rintro ⟨d, rfl, h⟩
    refine ⟨h.once, fun e he => ?_⟩
    cases e with
    | none => simp [aggregatesOf]
    | some e => exact h.elsewhere e (by simpa using he)

/-- **In a wired model the links agree exactly if the nodes have a handle each.** -/
theorem Wired.linksAgree_iff (hw : m.Wired homes maps) : m.LinksAgree ↔ m.Addressable := by
  have hmodules := exists_onlyIn_iff hw.modules
  have hrelationships := exists_onlyIn_iff hw.relationships
  rw [hw.homes_length] at hmodules
  rw [hw.maps_length] at hrelationships
  have hobjects := onlyIn_iff hw.objects
  have hattributes := onlyIn_iff hw.attributes
  have hreferences := onlyIn_iff hw.references
  have hantiCorruptions := onlyIn_iff hw.antiCorruptions
  have haggregates := fun h => onlyIn_iff (hw.aggregates h)
  simp only [onlyIn_aggregatesOf] at haggregates
  constructor
  · intro h arena hcontext hcontextMap
    have hfew := hmodules.mp h.modules
    cases arena with
    | context => exact absurd rfl hcontext
    | contextMap => exact absurd rfl hcontextMap
    | module => exact hfew
    | aggregate => exact (haggregates hfew).mp h.aggregates
    | object => exact hobjects.mp h.objects
    | «attribute» => exact hattributes.mp h.attributes
    | reference => exact hreferences.mp h.references
    | antiCorruption => exact hantiCorruptions.mp h.antiCorruptions
    | relationship => exact hrelationships.mp h.relationships
    | expr => exact Nat.zero_le _
  · intro h
    have hfew : m.modules.length ≤ UInt32.size := h .module (by simp) (by simp)
    exact {
      aggregates := (haggregates hfew).mpr (h .aggregate (by simp) (by simp))
      objects := hobjects.mpr (h .object (by simp) (by simp))
      attributes := hattributes.mpr (h Arena.attribute (by simp) (by simp))
      references := hreferences.mpr (h .reference (by simp) (by simp))
      modules := hmodules.mpr hfew
      antiCorruptions := hantiCorruptions.mpr (h .antiCorruption (by simp) (by simp))
      relationships := hrelationships.mpr (h .relationship (by simp) (by simp)) }

end

end Model

end DomainModel
