import DomainModel.CommandLine.Report
import DomainModel.Proofs.Nodes
import DomainModel.Proofs.Places.Typing
import DomainModel.Proofs.Totality.Navigation

/-! # Places inside a model

A node reference is a handle, or the handle of an owner and a position in one of its lists.
`m.HasNode node` says that the handle is inside its arena and the position inside its list.
`m.Lists node feature n` says that the feature of the node is a list of `n` items. A place points
into the model if its node exists and its position, if it has one, is inside the list
(`Model.PointsInto`). The command line has a name for every node that exists
(`isSome_describe?`). -/

namespace DomainModel

/-! ### Nodes -/

namespace Model

variable (m : Model)

def mapping? (o : ObjectId) : Option EntityMapping :=
  m.objects[o.index]?.bind DomainObject.mapping?

def constructor? (o : ObjectId) : Option Constructor :=
  m.objects[o.index]?.bind (·.constructor)

def operation? (o : ObjectId) (i : Nat) : Option Operation :=
  m.objects[o.index]?.bind (·.operations[i]?)

def parameters? : Callable → Option (List Parameter)
  | .constructor o => (m.constructor? o).map (·.parameters)
  | .operation o i => (m.operation? o i).map (·.parameters)

/-- There is an assignment at the position; in an operation the commands are counted. -/
def HasAssignment : Callable → Nat → Prop
  | .constructor o, i => ∃ c ∈ m.constructor? o, i < c.assignments.length
  | .operation o j, i =>
    ∃ p ∈ m.operation? o j, ∃ left right, p.commands[i]? = some (.assignment left right)

/-- **The node exists.** -/
def HasNode : NodeRef → Prop
  | .context c => m.Holds c.any
  | .contextMap h => m.Holds h.any
  | .relationship r => m.Holds r.any
  | .aggregate a => m.Holds a.any
  | .domainObject o => m.Holds o.any
  | .attribute a => m.Holds a.any
  | .antiCorruption owner => m.Holds owner.any
  | .attributeTranslation owner i =>
    ∃ ac ∈ m.antiCorruptions[owner.index]?, i < ac.attributes.length
  | .interInvariant owner i => ∃ ac ∈ m.antiCorruptions[owner.index]?, i < ac.invariants.length
  | .intraInvariant owner i => ∃ a ∈ m.aggregates[owner.index]?, i < a.invariants.length
  | .entityMapping entity => (m.mapping? entity).isSome
  | .aliasDeclaration entity i => ∃ e ∈ m.mapping? entity, i < e.aliases.length
  | .attributeMapping entity i => ∃ e ∈ m.mapping? entity, i < e.attributes.length
  | .callable c => (m.parameters? c).isSome
  | .parameter c i => ∃ parameters ∈ m.parameters? c, i < parameters.length
  | .assignment c i => m.HasAssignment c i
  | .expr id => ∃ e ∈ m.exprNodes, e.id = id

end Model

/-! ### Lists -/

/-- The feature of a form is a list of so many items. -/
inductive Form.Lists : Form → Feature → Nat → Prop where
  | finalElements {chains : List (List String)} :
    Lists (.final chains) .finalElements chains.length
  | queryParams {operation : String} {params properties : List String} {methods : List Method} :
    Lists (.path (.query operation params) properties methods) .queryParams params.length
  | properties {head : PathHead} {properties : List String} {methods : List Method} :
    Lists (.path head properties methods) .properties properties.length
  | methods {head : PathHead} {properties : List String} {methods : List Method} :
    Lists (.path head properties methods) .methods methods.length

/-- The feature of a node of the model is a list of so many items. -/
inductive Model.Lists (m : Model) : NodeRef → Feature → Nat → Prop where
  | boundedContexts {h : ContextMapId} {map : ContextMap}
    (hmap : m.contextMaps[h.index]? = some map) :
    Lists m (.contextMap h) .boundedContexts map.contexts.length
  | exposedAggregates {r : RelationshipId} {supply : Supply}
    (hsupply : m.relationships[r.index]? = some (.upstreamDownstream supply)) :
    Lists m (.relationship r) .upstreamExposedAggregates supply.exposedAggregates.length
  | aliasReferences {o : ObjectId} {e : EntityMapping} {i : Nat} {d : AliasDeclaration}
    (he : m.mapping? o = some e) (hd : e.aliases[i]? = some d) :
    Lists m (.aliasDeclaration o i) .references d.references.length
  | pathReferences {o : ObjectId} {e : EntityMapping} {i : Nat} {a : EntityAttributeMapping}
    (he : m.mapping? o = some e) (ha : e.attributes[i]? = some a) :
    Lists m (.attributeMapping o i) .references a.path.references.length
  | commands {o : ObjectId} {i : Nat} {p : Operation} (hp : m.operation? o i = some p) :
    Lists m (.callable (.operation o i)) .commands p.commands.length
  | expr {e : Expr} {f : Feature} {n : Nat} (he : e ∈ m.exprNodes) (hn : e.form.Lists f n) :
    Lists m (.expr e.id) f n

/-- **The place is inside the model:** its node exists, and its position, if it has one, is inside
the list that the feature denotes. -/
structure Model.PointsInto (m : Model) (l : Location) : Prop where
  node : m.HasNode l.node
  index : ∀ i ∈ l.index, ∃ n, m.Lists l.node l.feature n ∧ i < n

variable {m : Model}

/-! ### Places of a node -/

theorem everywhere_of_hasNode {node : NodeRef} (h : m.HasNode node) :
    Everywhere m.PointsInto node := by
  intro f
  exact ⟨h, by simp⟩

theorem throughout_of_lists {node : NodeRef} {f : Feature} {n : Nat} (h : m.HasNode node)
    (hn : m.Lists node f n) : Throughout m.PointsInto node f n := by
  intro i hi
  refine ⟨h, fun j hj => ?_⟩
  cases hj
  exact ⟨n, hn, hi⟩

/-- The positions at which an expression is marked are positions in its lists. -/
theorem Expr.Place.lists {e : Expr} {l : Location} (h : e.Place l) :
    ∀ i ∈ l.index, ∃ n, e.form.Lists l.feature n ∧ i < n := by
  intro i hi
  cases h with
  | chain h =>
    cases hi
    exact ⟨_, .finalElements, h⟩
  | property h =>
    cases hi
    exact ⟨_, .properties, h⟩
  | method h =>
    cases hi
    exact ⟨_, .methods, h⟩
  | head h =>
    cases h with
    | param h =>
      cases hi
      exact ⟨_, .queryParams, h⟩
    | _ => cases hi
  | _ => cases hi

theorem Model.pointsInto_of_place {e : Expr} (he : e ∈ m.exprNodes) {l : Location}
    (h : e.Place l) : m.PointsInto l := by
  constructor
  · rw [h.node_eq]
    exact ⟨e, he, rfl⟩
  · intro i hi
    obtain ⟨n, hn, hlt⟩ := h.lists i hi
    rw [h.node_eq]
    exact ⟨n, .expr he hn, hlt⟩

theorem Model.atNodes_of_subset {nodes : List Expr} (h : ∀ n ∈ nodes, n ∈ m.exprNodes) :
    AtNodes m.PointsInto nodes :=
  fun n hn _ hl => pointsInto_of_place (h n hn) hl

/-! ### Names of nodes -/

theorem Model.holds_of_isSome_bind {β : Type} {o : ObjectId} {f : DomainObject → Option β}
    (h : (m.objects[o.index]?.bind f).isSome) : m.Holds o.any := by
  cases hobject : m.objects[o.index]? with
  | none =>
    rw [hobject] at h
    cases h
  | some object => exact (List.getElem?_eq_some_iff.mp hobject).1

/-- A callable with an assignment exists. -/
theorem Model.HasAssignment.isSome_parameters? {c : Callable} {i : Nat}
    (h : m.HasAssignment c i) : (m.parameters? c).isSome := by
  cases c with
  | constructor o =>
    obtain ⟨k, hk, -⟩ := h
    rw [parameters?, Option.isSome_map, hk]
    rfl
  | operation o j =>
    obtain ⟨p, hp, -⟩ := h
    rw [parameters?, Option.isSome_map, hp]
    rfl

theorem isSome_map_getElem? {α β : Type} {as : List α} {i : Nat} (f : α → β) (h : i < as.length) :
    (as[i]?.map f).isSome := by
  rw [List.getElem?_eq_getElem h]
  rfl

/-- For an attribute this takes the link to its owner. -/
theorem AttributeId.isSome_describe? (hm : m.InRange) {a : AttributeId} (h : m.Holds a.any) :
    (a.any.describe? m).isSome := by
  obtain ⟨n, hn⟩ : ∃ n, m.attributes[a.any.index]? = some n := ⟨_, List.getElem?_eq_getElem h⟩
  have howner := (hm.attributes n (List.mem_of_getElem? hn)).owner
  obtain ⟨owner, ho⟩ : ∃ owner, m.objects[n.owner.index]? = some owner :=
    ⟨_, List.getElem?_eq_getElem howner⟩
  simp only [AnyHandle.describe?, Handle.any] at hn ⊢
  simp [hn, ho]

theorem ObjectId.isSome_describe? {o : ObjectId} (h : m.Holds o.any) :
    (o.any.describe? m).isSome :=
  isSome_map_getElem? _ h

theorem Callable.isSome_describe? {c : Callable} (h : (m.parameters? c).isSome) :
    (c.object.any.describe? m).isSome := by
  cases c with
  | constructor o | operation o j =>
    rw [Model.parameters?, Option.isSome_map] at h
    exact ObjectId.isSome_describe? (Model.holds_of_isSome_bind h)

namespace NodeRef

/-- **In a model in range every node has a name,** since the whole that it belongs to has one. -/
theorem isSome_describe? (hm : m.InRange) {node : NodeRef} (h : m.HasNode node) :
    (node.describe? m).isSome := by
  rw [describe?, Option.isSome_map]
  cases node with
  | context | contextMap | aggregate | domainObject | antiCorruption =>
    exact isSome_map_getElem? _ h
  | relationship | expr => rfl
  | «attribute» => exact AttributeId.isSome_describe? hm h
  | attributeTranslation owner i | interInvariant owner i =>
    obtain ⟨ac, hac, -⟩ := h
    exact isSome_map_getElem? _ (List.getElem?_eq_some_iff.mp hac).1
  | intraInvariant owner i =>
    obtain ⟨a, ha, -⟩ := h
    exact isSome_map_getElem? _ (List.getElem?_eq_some_iff.mp ha).1
  | entityMapping entity => exact ObjectId.isSome_describe? (Model.holds_of_isSome_bind h)
  | aliasDeclaration entity i | attributeMapping entity i =>
    obtain ⟨e, he, -⟩ := h
    exact ObjectId.isSome_describe? (Model.holds_of_isSome_bind (Option.isSome_of_mem he))
  | callable c => exact Callable.isSome_describe? h
  | parameter c i =>
    obtain ⟨parameters, hparameters, -⟩ := h
    exact Callable.isSome_describe? (Option.isSome_of_mem hparameters)
  | assignment c i => exact Callable.isSome_describe? (Model.HasAssignment.isSome_parameters? h)

end NodeRef

end DomainModel
