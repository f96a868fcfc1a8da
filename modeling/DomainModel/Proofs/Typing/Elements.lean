import DomainModel.Proofs.Clean.Navigation
import DomainModel.Proofs.Typing.Chains

/-! # Elements of collections

The type of a collection names the objects it holds and forgets which object of the name they are.
The variable of a lambda finds the object again by that name, first in the aggregate and then in the
whole model (`objectNamed_name`). Where objects have distinct names it finds the very target of the
collection reference, so the body of `root.….map(x -> x.…)` is walked from there
(`inferType_map_elements`). -/

namespace DomainModel

/-! ### Names of objects -/

namespace Model

variable {m : Model}

theorem value_objectByName (a : AggregateId) (name : String) :
    (m.objectByName a name).value =
      (m.aggregate a).value.objects.find? fun o => (m.object o).value.name == name := by
  simp [objectByName]

/-- Distinct names tell the objects of the model apart. -/
theorem object_name_inj (hnames : (m.objects.map (·.name)).Nodup) {o t : ObjectId}
    (ho : m.Holds o.any) (ht : m.Holds t.any)
    (h : (m.object o).value.name = (m.object t).value.name) : o = t := by
  have hname : ∀ u : ObjectId, m.Holds u.any →
      (m.objects.map (·.name))[u.index]? = some (m.object u).value.name := by
    intro u hu
    have hfound : m.objects[u.index]? = some m.objects[u.index] := List.getElem?_eq_getElem hu
    simp [object, Lookup.node, hfound]
  have hlt : o.index < (m.objects.map (·.name)).length := by
    rw [List.length_map]
    exact ho
  refine Handle.index_inj.mp ((List.getElem?_inj hlt hnames).mp ?_)
  rw [hname o ho, hname t ht, h]

/-- An aggregate with a root is one of the model. -/
theorem holds_of_rootEntity {a : AggregateId} {root : ObjectId}
    (h : (m.rootEntity a).value = some root) : m.Holds a.any := by
  by_contra hout
  have hnone : m.aggregates[a.index]? = none := List.getElem?_eq_none (Nat.le_of_not_lt hout)
  have hnode : (m.aggregate a).value = default := by simp [aggregate, Lookup.node, hnone]
  rw [rootEntity, Lookup.value_bind, hnode] at h
  cases h

/-! ### Chains to collections -/

/-- What a chain resolves to is a type of something. -/
theorem Resolves.isError_eq_false {o : ObjectId} {chain : List String} {type : Ty}
    (h : m.Resolves o chain type) : type.isError = false := by
  obtain ⟨t, -, rfl⟩ | ⟨init, last, t, -, -, hend⟩ := h
  · rfl
  · cases hend <;> rfl

variable (m) in
/-- The chain leads over single-valued references to a collection reference with the target `t`. -/
def LeadsToMany (o : ObjectId) (chain : List String) (t : ObjectId) : Prop :=
  ∃ init last u r, chain = init ++ [last] ∧ m.Leads o init u ∧
    (m.referencesNamed u last).head? = some r ∧ r.collection.isCollection = true ∧
    r.target = some t

theorem walk_of_leadsToMany {o t : ObjectId} {chain : List String} (h : m.LeadsToMany o chain t) :
    (m.walk o chain).value = .ok (.collection (.entity (m.object t).value.name)) := by
  obtain ⟨init, last, u, r, rfl, hleads, hfirst, hmany, htarget⟩ := h
  exact walk_eq_ok_iff.mpr (.inr ⟨init, last, u, rfl, hleads, .collection hfirst hmany htarget⟩)

end Model

namespace Env

variable {env : Env}

/-- **By its name an object is found again,** if names are distinct. -/
theorem objectNamed_name (hnames : (env.model.objects.map (·.name)).Nodup)
    (hlisted : ∀ a ∈ env.aggregate, ∀ o ∈ (env.model.aggregate a).value.objects,
      env.model.Holds o.any) {t : ObjectId} (ht : env.model.Holds t.any) :
    (env.objectNamed (env.model.object t).value.name).value = some t := by
  have hall : (Lookup.find? (fun o => return (← env.model.object o).name ==
      (env.model.object t).value.name) env.model.objectIds).value = some t := by
    simp only [Lookup.value_find?, Lookup.value_bind, Lookup.value_pure]
    rw [find?_eq_some_iff_of_inj]
    · exact ⟨Handle.mem_firsts ht, rfl⟩
    · exact fun o ho u hu => Model.object_name_inj hnames (Model.holds_of_mem_objectIds ho)
        (Model.holds_of_mem_objectIds hu)
  unfold objectNamed
  cases ha : env.aggregate with
  | none => exact hall
  | some a =>
    rw [Lookup.value_bind, Model.value_objectByName]
    cases hown : (env.model.aggregate a).value.objects.find? fun o =>
        (env.model.object o).value.name == (env.model.object t).value.name with
    | none => exact hall
    | some o =>
      have hmem := List.mem_of_find?_eq_some hown
      have hname := List.find?_some hown
      rw [Model.object_name_inj hnames (hlisted a ha o hmem) ht (by simpa using hname)]
      rfl

/-! ### Paths from objects -/

/-- A path whose walk finds a type goes on with its methods from there. -/
theorem infer_of_walk_ok {id : ExprId} {scope : Scope} {kind : ScopeKind} {head : PathHead}
    {o : ObjectId} {chain : List String} {type : Ty}
    (hhead : (env.head id scope kind head).value = some (.object o))
    (hwalk : (env.model.walk o chain).value = .ok type) (methods : List Method) :
    let path : Expr := ⟨id, .path head chain methods⟩
    (env.infer scope kind path).value = (env.applyMethods id scope 0 type methods).value ∧
      (env.infer scope kind path).findings =
        (env.applyMethods id scope 0 type methods).findings := by
  intro path
  have hsilent : (env.head id scope kind head).findings = [] :=
    (env.stops_head id scope kind head).findings_eq_nil (by rw [hhead]; simp)
  have hbase : (env.base id scope kind head chain).value = type ∧
      (env.base id scope kind head chain).findings = [] := by
    unfold base
    simp [hhead, hwalk, hsilent]
  have hknown := (Model.walk_eq_ok_iff.mp hwalk).isError_eq_false
  rw [infer]
  simp [hbase.1, hbase.2, hknown]

theorem head_root {a : AggregateId} {root : ObjectId} (haggregate : env.aggregate = some a)
    (hroot : (env.model.rootEntity a).value = some root) {kind : ScopeKind}
    (hkind : kind.allowsRoot = true) (id : ExprId) (scope : Scope) :
    (env.head id scope kind .root).value = some (.object root) := by
  simp [head, hkind, Env.root, haggregate, hroot]

theorem head_element (hnames : (env.model.objects.map (·.name)).Nodup)
    (hlisted : ∀ a ∈ env.aggregate, ∀ o ∈ (env.model.aggregate a).value.objects,
      env.model.Holds o.any) {t : ObjectId} (ht : env.model.Holds t.any) (id : ExprId)
    (scope : Scope) (x : String) :
    (env.head id (scope.child x (.entity (env.model.object t).value.name)) .methodLocal
      (.variable x)).value = some (.object t) := by
  have hlookup : (scope.child x (.entity (env.model.object t).value.name)).lookup x =
      some (.entity (env.model.object t).value.name) := by
    simp [Scope.lookup]
  simp [head, hlookup, variableStart, objectNamed_name hnames hlisted ht]

theorem lambdaResult_map (id : ExprId) (type body : Ty) :
    lambdaResult id 0 .map type body =
      pure (if body.isError then .error else .collection body) := by
  cases h : body.isError <;> simp [lambdaResult, h, ParametricMethod.takesPredicate]

/-- `map` binds the variable to the type of the elements and collects what its body gives. -/
theorem applyMethods_map {scope : Scope} {x : String} (hx : scope.isDeclared x = false)
    (id : ExprId) (element : Ty) (body : Expr) :
    let inferred := env.infer (scope.child x element) .methodLocal body
    let mapped := env.applyMethods id scope 0 (.collection element) [.parametric .map x body]
    mapped.findings = inferred.findings ∧
      mapped.value = if inferred.value.isError then .error else .collection inferred.value := by
  have hbind : scope.bind x element = .ok (scope.child x element) := by
    rw [Scope.isDeclared, Option.isSome_eq_false_iff, Option.isNone_iff_eq_none] at hx
    simp [Scope.bind, hx]
  have hscope : lambdaScope id 0 .map x (.collection element) scope =
      pure (some (scope.child x element)) := by
    simp [lambdaScope, Ty.isCollection, Ty.unwrapCollection, hbind]
  intro inferred mapped
  have hmapped : mapped = inferred >>= fun body =>
      pure (if body.isError then .error else .collection body) := by
    change env.applyMethods id scope 0 _ _ = _
    rw [applyMethods, hscope, pure_bind]
    refine bind_congr fun body => ?_
    rw [lambdaResult_map, pure_bind]
    cases body.isError <;> rfl
  simp [hmapped]

/-- A path to a collection that is mapped has the reports of the lambda's body, and collects its
type. -/
theorem infer_map {id : ExprId} {scope : Scope} {kind : ScopeKind} {head : PathHead}
    {o : ObjectId} {chain : List String} {element : Ty} {x : String}
    (hhead : (env.head id scope kind head).value = some (.object o))
    (hwalk : (env.model.walk o chain).value = .ok (.collection element))
    (hx : scope.isDeclared x = false) (body : Expr) :
    let inferred := env.infer (scope.child x element) .methodLocal body
    let path : Expr := ⟨id, .path head chain [.parametric .map x body]⟩
    (env.infer scope kind path).findings = inferred.findings ∧
      (env.infer scope kind path).value =
        if inferred.value.isError then .error else .collection inferred.value := by
  obtain ⟨hvalue, hfindings⟩ := env.infer_of_walk_ok hhead hwalk [.parametric .map x body]
  obtain ⟨hmapFindings, hmapValue⟩ := env.applyMethods_map hx id element body
  exact ⟨hfindings.trans hmapFindings, hvalue.trans hmapValue⟩

/-- The body `x.…` is typed by the walk from the element of which `x` has the name. -/
theorem infer_element (hnames : (env.model.objects.map (·.name)).Nodup)
    (hlisted : ∀ a ∈ env.aggregate, ∀ o ∈ (env.model.aggregate a).value.objects,
      env.model.Holds o.any) {t : ObjectId} (ht : env.model.Holds t.any) (id : ExprId)
    (scope : Scope) (x : String) (chain : List String) :
    let inferred := env.infer (scope.child x (.entity (env.model.object t).value.name)) .methodLocal
      ⟨id, .path (.variable x) chain []⟩
    (∀ type, (env.model.walk t chain).value = .ok type →
        type.isError = false ∧ inferred.value = type ∧ inferred.findings = []) ∧
      ∀ i, (env.model.walk t chain).value = .error i →
        inferred.value = .error ∧ ∃ property, chain[i]? = some property ∧
          inferred.findings = [⟨.notEntityProperty property, .expr id, .properties, some i⟩] := by
  have hhead := env.head_element hnames hlisted ht id scope x
  refine ⟨fun type hwalk => ?_, fun i hwalk => ?_⟩
  · obtain ⟨hvalue, hfindings⟩ := env.infer_of_walk_ok hhead hwalk []
    rw [hvalue, hfindings, applyMethods]
    exact ⟨(Model.walk_eq_ok_iff.mp hwalk).isError_eq_false, rfl, rfl⟩
  · have hproperty := List.getElem?_eq_getElem (Model.walk_eq_error_iff.mp hwalk).lt
    obtain ⟨hvalue, hfindings⟩ := env.infer_of_walk_error hhead hwalk hproperty []
    exact ⟨hvalue, _, hproperty, hfindings⟩

end Env

namespace Model

/-- **Elements keep their identity.** Where the objects of the model have distinct names, a chain
from the root to a collection reference is mapped by walking from the target of that reference: the
path is a collection of what the walk finds, or has one report, of the property at which it stops.
The objects that are named have to be there: the aggregate's own ones and the target. -/
theorem inferType_map_elements (m : Model) (hnames : (m.objects.map (·.name)).Nodup)
    {a : AggregateId} (hlisted : ∀ o ∈ (m.aggregate a).value.objects, m.Holds o.any)
    {root : ObjectId} (hroot : (m.rootEntity a).value = some root) {ps : List String} {t : ObjectId}
    (ht : m.Holds t.any) (hps : m.LeadsToMany root ps t) (policy : TernaryPolicy) (scope : Scope)
    {x : String} (hx : scope.isDeclared x = false) {kind : ScopeKind}
    (hkind : kind = .intraInvariant ∨ kind = .constructorAssignment) (id bodyId : ExprId)
    (qs : List String) :
    let inferred := m.inferType (some a) policy scope kind
      ⟨id, .path .root ps [.parametric .map x ⟨bodyId, .path (.variable x) qs []⟩]⟩
    (∀ type, (m.walk t qs).value = .ok type →
        inferred.value = .collection type ∧ inferred.findings = []) ∧
      (∀ i, (m.walk t qs).value = .error i →
        inferred.value = .error ∧ ∃ property, qs[i]? = some property ∧
          inferred.findings = [⟨.notEntityProperty property, .expr bodyId, .properties, some i⟩]) ∧
      (m.InRange → inferred.misses = []) := by
  let env := (Env.forAggregate m (some a) policy).value
  have hallows : kind.allowsRoot = true := by rcases hkind with rfl | rfl <;> rfl
  obtain ⟨hfindings, hvalue⟩ := env.infer_map (env.head_root rfl hroot hallows id scope)
    (walk_of_leadsToMany hps) hx ⟨bodyId, .path (.variable x) qs []⟩
  obtain ⟨hok, herror⟩ := env.infer_element hnames (by rintro _ ⟨⟩; exact hlisted) ht bodyId scope x
    qs
  intro inferred
  refine ⟨fun type hwalk => ?_, fun i hwalk => ?_, fun hm => ?_⟩
  · obtain ⟨hknown, htype, hsilent⟩ := hok type hwalk
    refine ⟨hvalue.trans ?_, hfindings.trans hsilent⟩
    rw [htype, hknown]
    rfl
  · obtain ⟨hfailed, property, hproperty, hreport⟩ := herror i hwalk
    refine ⟨hvalue.trans ?_, property, hproperty, hfindings.trans hreport⟩
    rw [hfailed]
    rfl
  · refine (total_inferType hm ?_ policy scope kind _).misses_eq
    rintro _ ⟨⟩
    exact holds_of_rootEntity hroot

/-- The lines of the order before have a price, and no prize. -/
theorem inferType_map_elements_previous :
    let type := fun property => chainedOrders.inferType (some ⟨0⟩) .boolean .empty .intraInvariant
      ⟨⟨0⟩, .path .root ["previous", "lines"]
        [.parametric .map "l" ⟨⟨1⟩, .path (.variable "l") [property] []⟩]⟩
    ((type "price").value = .collection (.primitive "Integer") ∧ (type "price").findings = []) ∧
      (type "prize").value = .error ∧
      (type "prize").findings =
        [⟨.notEntityProperty "prize", .expr ⟨1⟩, .properties, some 0⟩] ∧
      (type "prize").misses = [] := by
  intro type
  have names : (chainedOrders.objects.map (·.name)).Nodup := by decide
  have leads : chainedOrders.LeadsToMany ⟨0⟩ ["previous", "lines"] ⟨1⟩ :=
    ⟨["previous"], "lines", ⟨0⟩, _, rfl, .next ⟨_, rfl, rfl, rfl⟩ (.here _), rfl, rfl, rfl⟩
  have mapped := fun qs => inferType_map_elements chainedOrders names (a := ⟨0⟩) (by decide) rfl
    (by decide) leads .boolean .empty (x := "l") rfl (.inl rfl) ⟨0⟩ ⟨1⟩ qs
  obtain ⟨priced, -, -⟩ := mapped ["price"]
  obtain ⟨-, unpriced, total⟩ := mapped ["prize"]
  obtain ⟨failed, property, known, reported⟩ := unpriced 0 rfl
  cases known
  have linked : chainedOrders.Linked := by decide
  exact ⟨priced _ rfl, failed, reported, total (linked_iff_inRange.mp linked)⟩

end Model

end DomainModel
