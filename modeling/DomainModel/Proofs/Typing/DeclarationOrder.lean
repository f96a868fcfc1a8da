import Mathlib.Data.List.Forall2
import Mathlib.Data.List.Perm.Basic
import DomainModel.Proofs.Typing.Agreement
import DomainModel.Proofs.Typing.Elements
import DomainModel.Proofs.Typing.Inherited

/-! # The order of declarations

Every search by name stops at its first hit, and so does the search for the root of an aggregate.
Where names are distinct and there is one root at most (`Model.Unambiguous`), the hit does not
depend on the order in which aggregates list their objects and objects their attributes and
references: in a model that lists them in another order (`Model.Reorders`), every expression has the
same type and the same findings (`Model.inferType_reordered`). -/

namespace DomainModel

/-! ### Reordered models -/

/-- The aggregate with its objects in another order. -/
structure Aggregate.Reorders (a' a : Aggregate) : Prop where
  objects : a'.objects.Perm a.objects
  rest : { a' with objects := a.objects } = a

/-- The object with its attributes and its references in another order. -/
structure DomainObject.Reorders (o' o : DomainObject) : Prop where
  attributes : o'.attributes.Perm o.attributes
  references : o'.references.Perm o.references
  rest : { o' with attributes := o.attributes, references := o.references } = o

/-- **The model with its declarations in another order.** The arenas keep theirs, so every handle
points to the same node. -/
structure Model.Reorders (m' m : Model) : Prop where
  aggregates : List.Forall₂ Aggregate.Reorders m'.aggregates m.aggregates
  objects : List.Forall₂ DomainObject.Reorders m'.objects m.objects
  rest : { m' with aggregates := m.aggregates, objects := m.objects } = m

/-- The declarations of the model in reverse. -/
def Model.reversed (m : Model) : Model :=
  { m with
    aggregates := m.aggregates.map fun a => { a with objects := a.objects.reverse }
    objects := m.objects.map fun o =>
      { o with attributes := o.attributes.reverse, references := o.references.reverse } }

theorem Model.reversed_reorders (m : Model) : m.reversed.Reorders m where
  aggregates := by
    refine List.forall₂_map_left_iff.mpr (List.forall₂_same.mpr fun a _ => ?_)
    exact ⟨a.objects.reverse_perm, rfl⟩
  objects := by
    refine List.forall₂_map_left_iff.mpr (List.forall₂_same.mpr fun o _ => ?_)
    exact ⟨o.attributes.reverse_perm, o.references.reverse_perm, rfl⟩
  rest := rfl

/-- **Declarations are told apart:** no two objects of an aggregate, attributes of an object or
references of an object have one name, and no two objects of an aggregate are root entities. Names
that are distinct in the whole model are more than enough (`unambiguous_of_nodup`). -/
structure Model.Unambiguous (m : Model) : Prop where
  objects : ∀ a ∈ m.aggregates, ∀ o ∈ a.objects, ∀ p ∈ a.objects,
    (m.object o).value.name = (m.object p).value.name → o = p
  roots : ∀ a ∈ m.aggregates, ∀ o ∈ a.objects, ∀ p ∈ a.objects,
    (m.object o).value.isRootEntity = true → (m.object p).value.isRootEntity = true → o = p
  attributes : ∀ o ∈ m.objects, ∀ b ∈ o.attributes, ∀ c ∈ o.attributes,
    (m.attributeOf b).value.name = (m.attributeOf c).value.name → b = c
  references : ∀ o ∈ m.objects, ∀ r ∈ o.references, ∀ t ∈ o.references,
    (m.reference r).value.name = (m.reference t).value.name → r = t

/-! ### Lists in another order -/

theorem contains_perm {α : Type} [BEq α] [LawfulBEq α] {as' as : List α} (h : as'.Perm as)
    (a : α) : as'.contains a = as.contains a := by
  rw [Bool.eq_iff_iff, List.contains_iff_mem, List.contains_iff_mem, h.mem_iff]

/-- Lists that are related item by item yield the same up to order if related items do. -/
theorem flatMap_perm {α β : Type} {R : α → α → Prop} {f : α → List β} {as' as : List α}
    (h : List.Forall₂ R as' as) (hf : ∀ a' a, R a' a → (f a').Perm (f a)) :
    (as'.flatMap f).Perm (as.flatMap f) := by
  induction h with
  | nil => exact .refl _
  | cons hab _ ih => exact (hf _ _ hab).append ih

/-- The nodes of a handle in two arenas that are related node by node. -/
theorem Lookup.forall₂_node {α : Type} [Inhabited α] {R : α → α → Prop}
    (hdefault : R default default) {nodes' nodes : List α} (h : List.Forall₂ R nodes' nodes)
    {arena : Arena} (k : Handle arena) : R (node nodes' k).value (node nodes k).value := by
  unfold node
  generalize k.index = i
  induction h generalizing i with
  | nil => exact hdefault
  | cons hab _ ih =>
    cases i with
    | zero => exact hab
    | succ i => exact ih i

/-! ### Nodes in another order -/

theorem Aggregate.Reorders.links_perm {a' a : Aggregate} (h : a'.Reorders a) :
    (Model.linksOf (.aggregate a'.name) a'.handles).Perm
      (Model.linksOf (.aggregate a.name) a.handles) := by
  have hobjects := h.objects.map Handle.any
  rw [← h.rest]
  exact (hobjects.append_left _).map _

theorem DomainObject.Reorders.links_perm {o' o : DomainObject} (h : o'.Reorders o) :
    (Model.linksOf (.object o'.name) o'.handles).Perm
      (Model.linksOf (.object o.name) o.handles) := by
  have hlists := (h.attributes.map Handle.any).append (h.references.map Handle.any)
  rw [← h.rest]
  exact (((hlists.append_right _).append_right _).cons _).map _

namespace Model

variable {m' m : Model}

/-- Names are told apart where they are distinct. -/
theorem unambiguous_of_nodup (hm : m.InRange) (objects : (m.objects.map (·.name)).Nodup)
    (roots : ∀ a ∈ m.aggregates,
      (a.objects.filter fun o => (m.object o).value.isRootEntity).length ≤ 1)
    (attributes : ∀ o ∈ m.objects, (o.attributes.map fun b => (m.attributeOf b).value.name).Nodup)
    (references : ∀ o ∈ m.objects, (o.references.map fun r => (m.reference r).value.name).Nodup) :
    m.Unambiguous where
  objects a ha o ho p hp := by
    have hlisted := (hm.aggregates a ha).objects
    exact object_name_inj objects (hlisted o ho) (hlisted p hp)
  roots a ha o ho p hp hroot hroot' := by
    have hmem : ∀ q ∈ a.objects, (m.object q).value.isRootEntity = true →
        q ∈ a.objects.filter fun q => (m.object q).value.isRootEntity :=
      fun q hq hroot => List.mem_filter.mpr ⟨hq, hroot⟩
    obtain ⟨i, hi, hio⟩ := List.getElem_of_mem (hmem o ho hroot)
    obtain ⟨j, hj, hjp⟩ := List.getElem_of_mem (hmem p hp hroot')
    have hone := roots a ha
    obtain rfl : i = j := by omega
    exact hio.symm.trans hjp
  attributes o ho b hb c hc := List.inj_on_of_nodup_map (attributes o ho) hb hc
  references o ho r hr t ht := List.inj_on_of_nodup_map (references o ho) hr ht

namespace Reorders

/-! ### Nodes -/

section

variable (h : m'.Reorders m)

include h

theorem aggregate (a : AggregateId) :
    (m'.aggregate a).value.Reorders (m.aggregate a).value :=
  Lookup.forall₂_node ⟨.refl _, rfl⟩ h.aggregates a

theorem object (o : ObjectId) : (m'.object o).value.Reorders (m.object o).value :=
  Lookup.forall₂_node ⟨.refl _, .refl _, rfl⟩ h.objects o

/-- What does not depend on aggregates and objects is the same in both models. -/
theorem rest_eq {α : Type} (p : Model → α)
    (hp : ∀ x as os, p { x with aggregates := as, objects := os } = p x) : p m' = p m :=
  (hp ..).symm.trans (congrArg p h.rest)

/-- What does not depend on the lists is the same of an object in both models. -/
theorem object_eq {α : Type} (p : DomainObject → α)
    (hp : ∀ x as rs, p { x with attributes := as, references := rs } = p x) (o : ObjectId) :
    p (m'.object o).value = p (m.object o).value :=
  (hp ..).symm.trans (congrArg p (h.object o).rest)

theorem name (o : ObjectId) : (m'.object o).value.name = (m.object o).value.name :=
  h.object_eq DomainObject.name (fun _ _ _ => rfl) o

theorem isEntity (o : ObjectId) : (m'.object o).value.isEntity = (m.object o).value.isEntity :=
  h.object_eq DomainObject.isEntity (fun _ _ _ => rfl) o

theorem attributeOf (b : AttributeId) : m'.attributeOf b = m.attributeOf b := by
  have hattributes : m'.attributes = m.attributes := h.rest_eq Model.attributes fun _ _ _ => rfl
  rw [Model.attributeOf, Model.attributeOf, hattributes]

theorem reference (r : ReferenceId) : m'.reference r = m.reference r := by
  have hreferences : m'.references = m.references := h.rest_eq Model.references fun _ _ _ => rfl
  rw [Model.reference, Model.reference, hreferences]

/-! ### Searches -/

theorem rootEntity (hm : m.Unambiguous) (a : AggregateId) :
    (m'.rootEntity a).value = (m.rootEntity a).value := by
  have hroot : ∀ o, (m'.object o).value.isRootEntity = (m.object o).value.isRootEntity :=
    h.object_eq DomainObject.isRootEntity fun _ _ _ => rfl
  simp only [Model.rootEntity, Lookup.value_bind, Lookup.value_find?, Lookup.value_pure, hroot]
  exact find?_perm_of_unique (h.aggregate a).objects
    (Lookup.forall_node (by rintro _ ⟨⟩) hm.roots a)

theorem objectByName (hm : m.Unambiguous) (a : AggregateId) (name : String) :
    (m'.objectByName a name).value = (m.objectByName a name).value := by
  simp only [value_objectByName, h.name]
  exact find?_perm_of_inj (h.aggregate a).objects
    (Lookup.forall_node (by rintro _ ⟨⟩) hm.objects a) name

theorem attributeByName (hm : m.Unambiguous) (o : ObjectId) (name : String) :
    (m'.attributeByName o name).value = (m.attributeByName o name).value := by
  simp only [value_attributeByName, h.attributeOf]
  exact find?_perm_of_inj (h.object o).attributes
    (Lookup.forall_node (by rintro _ ⟨⟩) hm.attributes o) name

theorem referenceByName (hm : m.Unambiguous) (o : ObjectId) (name : String) :
    (m'.referenceByName o name).value = (m.referenceByName o name).value := by
  simp only [value_referenceByName, h.reference]
  exact find?_perm_of_inj (h.object o).references
    (Lookup.forall_node (by rintro _ ⟨⟩) hm.references o) name

theorem stepsAlike (hm : m.Unambiguous) : m'.StepsAlike m where
  name := h.name
  propertyOwner o :=
    h.object_eq (fun x => (x.uses?.bind (·.valueObject)).getD o) (fun _ _ _ => rfl) o
  attributeByName := h.attributeByName hm
  referenceByName := h.referenceByName hm
  attributeOf b := by rw [h.attributeOf]
  reference r := by rw [h.reference]

/-- **Expressions do not see the order of declarations.** -/
theorem agrees (hm : m.Unambiguous) : m'.Agrees m where
  ids := congrArg Handle.firsts h.objects.length_eq
  name := h.name
  isEntity := h.isEntity
  repository := h.object_eq DomainObject.repository fun _ _ _ => rfl
  rootEntity := h.rootEntity hm
  objectByName := h.objectByName hm
  lists a o := contains_perm (h.aggregate a).objects o
  entityName a name := by
    simp only [entityNames, Lookup.value_bind, Lookup.value_pure, Lookup.value_map,
      List.filter_map, List.map_map, Function.comp_def, h.isEntity, h.name]
    exact contains_perm (((h.aggregate a).objects.filter _).map _) name
  walk := (h.stepsAlike hm).walkFrom 0

/-! ### Links -/

theorem holds (k : AnyHandle) : m'.Holds k ↔ m.Holds k := by
  have hsize : m'.size k.arena = m.size k.arena := by
    cases k.arena with
    | aggregate => exact h.aggregates.length_eq
    | object => exact h.objects.length_eq
    | _ => exact h.rest_eq (fun x => x.size _) fun _ _ _ => rfl
  rw [Holds, Holds, hsize]

/-- The same nodes hold the same links, in another order. -/
theorem links_perm : m'.links.Perm m.links := by
  have haggregates := flatMap_perm (f := fun a => linksOf (.aggregate a.name) a.handles)
    h.aggregates fun _ _ hrelated => hrelated.links_perm
  have hobjects := flatMap_perm (f := fun o => linksOf (.object o.name) o.handles)
    h.objects fun _ _ hrelated => hrelated.links_perm
  rw [← h.rest]
  unfold links
  -- the other arenas are the same in both models
  iterate 5 refine List.Perm.append_right _ ?_
  exact (haggregates.append_left _).append hobjects

theorem inRange (hm : m.InRange) : m'.InRange := by
  rw [← linked_iff_inRange] at hm ⊢
  exact fun l hl => (h.holds l.handle).mpr (hm l (h.links_perm.mem_iff.mp hl))

end

end Reorders

/-! ### Both runs -/

/-- **The order of declarations does not matter where they are told apart.** In both orders an
expression has one type and the same findings in the same order, whatever the aggregate, the scope,
the kind of place and the rule for ternaries; and in a model whose handles are in range both are
found. -/
theorem inferType_reordered {m' m : Model} (h : m'.Reorders m) (hm : m.Unambiguous)
    (aggregate : Option AggregateId) (policy : TernaryPolicy) (scope : Scope) (kind : ScopeKind)
    (e : Expr) :
    let run' := m'.inferType aggregate policy scope kind e
    let run := m.inferType aggregate policy scope kind e
    run'.value = run.value ∧ run'.findings = run.findings ∧
      (m.InRange → (∀ a ∈ aggregate, m.Holds a.any) → run'.misses = [] ∧ run.misses = []) := by
  intro run' run
  have hagrees := Env.agrees_forAggregate (h.agrees hm) aggregate policy
  have hnumbers : Env.Renumbers id id := fun _ _ _ _ => rfl
  have hscope : Scope.AgreesOn e.names scope scope := fun _ _ => rfl
  have hfollows := Env.follows_infer hnumbers hagrees e scope scope kind hscope
  rw [Expr.renumbered_id] at hfollows
  refine ⟨hfollows.value, hfollows.findings.trans (List.map_id _), fun hrange ha => ⟨?_, ?_⟩⟩
  · have ha' : ∀ a ∈ aggregate, m'.Holds a.any := fun a hmem => (h.holds a.any).mpr (ha a hmem)
    exact (total_inferType (h.inRange hrange) ha' policy scope kind e).misses_eq
  · exact (total_inferType hrange ha policy scope kind e).misses_eq

/-- The chained orders, with lines of two attributes. -/
def countedLines (second : Attribute) : Model :=
  { chainedOrders with
    objects :=
      [⟨"Order", ⟨0⟩, .entity ⟨none, none⟩, true, [⟨0⟩], [⟨0⟩, ⟨1⟩], none, none, []⟩,
        ⟨"Line", ⟨0⟩, .entity ⟨none, none⟩, false, [⟨1⟩, ⟨2⟩], [], none, none, []⟩]
    attributes := chainedOrders.attributes ++ [second] }

/-- `root.previous.lines.allMatch(l -> l.price < l.limit)` may have the objects, the attributes and
the references in either order. -/
theorem inferType_reordered_countedLines :
    let m := countedLines ⟨"limit", "Long", ⟨1⟩, false, none⟩
    let e := (Expr.root ["previous", "lines"]).callLambda .allMatch "l"
      (Expr.compare (Expr.var "l" ["price"]) .lt (Expr.var "l" ["limit"]))
    let run := fun m => inferType m (some ⟨0⟩) .boolean .empty .intraInvariant e
    m.reversed.Reorders m ∧ m.Unambiguous ∧
      (m.reversed.aggregate ⟨0⟩).value.objects = [⟨1⟩, ⟨0⟩] ∧
      (run m).value = .boolean ∧ (run m.reversed).value = (run m).value ∧
      (run m.reversed).findings = (run m).findings ∧ (run m.reversed).misses = [] := by
  intro m e run
  have linked : m.Linked := by decide
  have range : m.InRange := linked_iff_inRange.mp linked
  have unambiguous : m.Unambiguous :=
    unambiguous_of_nodup range (by decide) (by decide) (by decide) (by decide)
  obtain ⟨hvalue, hfindings, hfound⟩ := inferType_reordered m.reversed_reorders unambiguous
    (some ⟨0⟩) .boolean .empty .intraInvariant e
  have known : ∀ a ∈ some (⟨0⟩ : AggregateId), m.Holds a.any := by decide
  exact ⟨m.reversed_reorders, unambiguous, rfl, by decide, hvalue, hfindings,
    (hfound range known).1⟩

-- Of two attributes of one name the first counts, so their order matters.
example :
    let m := countedLines ⟨"price", "Float", ⟨1⟩, false, none⟩
    (m.walk ⟨1⟩ ["price"]).value = .ok (.primitive "Integer") ∧
      (m.reversed.walk ⟨1⟩ ["price"]).value = .ok (.primitive "Float") := by
  decide

end Model

end DomainModel
