import Mathlib.Data.List.Flatten
import Mathlib.Data.List.Nodup
import DomainModel.Proofs.Places.Analysis
import DomainModel.Proofs.Typing.Visits

/-! # Diagnostics in expressions identify distinct faults

`Pins nodes findings` says that what the findings mark in expressions is at some of the nodes, and
that no place is marked twice if the nodes have distinct numbers. Findings at disjoint nodes can be
put together, so the law passes from the rule of a single node (`Env.marks_rule`) to expressions,
from these to their owners, and to the whole run: each expression of a model is inferred at most
once. In a model that is loaded or built the numbers are distinct (`ids_exprNodes`). -/

namespace DomainModel

/-! ### Places in expressions -/

/-- The number of an expression, a feature, and a position in the feature. -/
abbrev ExprPlace := ExprId × Feature × Option Nat

/-- The place in an expression, if the location is one. -/
def Location.exprPlace? : Location → Option ExprPlace
  | ⟨.expr id, feature, index⟩ => some (id, feature, index)
  | _ => none

def Diagnostic.exprPlace? (d : Diagnostic) : Option ExprPlace :=
  d.location.bind Location.exprPlace?

def Finding.exprPlace? (f : Finding) : Option ExprPlace := f.location.exprPlace?

theorem Location.exprPlace?_eq_some {l : Location} {p : ExprPlace} :
    l.exprPlace? = some p ↔ l = ⟨.expr p.1, p.2.1, p.2.2⟩ := by
  obtain ⟨node, feature, index⟩ := l
  obtain ⟨id, f, i⟩ := p
  cases node with
  | expr id' => simp [exprPlace?]
  | _ => simp [exprPlace?]

/-- The location is outside all expressions. -/
abbrev Location.OutsideExprs (l : Location) : Prop := l.exprPlace? = none

/-- What the findings mark in expressions is at the nodes, and no place is marked twice if the
numbers of the nodes are distinct. -/
structure Pins (nodes : List Expr) (findings : List Finding) : Prop where
  mem : ∀ p ∈ findings.filterMap Finding.exprPlace?, p.1 ∈ nodes.map Expr.id
  nodup : (nodes.map Expr.id).Nodup → (findings.filterMap Finding.exprPlace?).Nodup

namespace Pins

variable {nodes nodes' : List Expr} {findings findings' : List Finding}

theorem of_exprPlaces_eq_nil (h : findings.filterMap Finding.exprPlace? = []) :
    Pins nodes findings := by
  constructor
  · simp [h]
  · simp [h]

/-- Findings at disjoint nodes are at distinct places. -/
theorem append (h : Pins nodes findings) (h' : Pins nodes' findings') :
    Pins (nodes ++ nodes') (findings ++ findings') := by
  constructor
  · intro p hp
    rw [List.filterMap_append, List.mem_append] at hp
    rw [List.map_append, List.mem_append]
    rcases hp with hp | hp
    · exact Or.inl (h.mem p hp)
    · exact Or.inr (h'.mem p hp)
  · intro hnodup
    rw [List.map_append, List.nodup_append] at hnodup
    obtain ⟨hnodes, hnodes', hdisjoint⟩ := hnodup
    rw [List.filterMap_append, List.nodup_append]
    refine ⟨h.nodup hnodes, h'.nodup hnodes', fun p hp q hq hpq => ?_⟩
    exact hdisjoint _ (h.mem p hp) _ (h'.mem q hq) (congrArg Prod.fst hpq)

theorem flatMap {α : Type} {as : List α} {n : α → List Expr} {f : α → List Finding}
    (h : ∀ a ∈ as, Pins (n a) (f a)) : Pins (as.flatMap n) (as.flatMap f) := by
  induction as with
  | nil => exact of_exprPlaces_eq_nil rfl
  | cons a as ih =>
    rw [List.flatMap_cons, List.flatMap_cons]
    rw [List.forall_mem_cons] at h
    exact h.1.append (ih h.2)

theorem sublist (h : Pins nodes findings) (hsub : nodes.Sublist nodes') :
    Pins nodes' findings := by
  have hids := hsub.map Expr.id
  exact ⟨fun p hp => hids.subset (h.mem p hp), fun hnodup => h.nodup (hnodup.sublist hids)⟩

theorem perm (h : Pins nodes findings) (hperm : nodes.Perm nodes') : Pins nodes' findings := by
  have hids := hperm.map Expr.id
  exact ⟨fun p hp => hids.subset (h.mem p hp), fun hnodup => h.nodup (hids.nodup_iff.mpr hnodup)⟩

end Pins

/-! ### Expressions -/

/-- What a check marks of a node is pinned by the node. -/
theorem Check.Marks.pins {α : Type} {c : Check α} {e : Expr} (h : c.Marks e.Place) :
    Pins [e] c.findings := by
  constructor
  · intro p hp
    obtain ⟨f, hf, hp⟩ := List.mem_filterMap.mp hp
    have hnode := (h.place f hf).node_eq
    rw [Finding.exprPlace?, Location.exprPlace?_eq_some] at hp
    rw [hp] at hnode
    injection hnode with hid
    rw [hid]
    exact List.mem_singleton.mpr rfl
  · intro _
    have hplaces : c.findings.filterMap Finding.exprPlace? =
        (c.findings.map Finding.location).filterMap Location.exprPlace? := by
      rw [List.filterMap_map]
      rfl
    rw [hplaces]
    -- A place in an expression says all of its location, so distinct locations stay distinct.
    refine h.nodup.filterMap fun l l' p hl hl' => ?_
    exact (Location.exprPlace?_eq_some.mp hl).trans (Location.exprPlace?_eq_some.mp hl').symm

/-- **The findings in an expression are pinned by its nodes.** The parts that are visited are among
the direct parts, each once, and their nodes are apart from each other and from the whole. -/
theorem Env.pins_infer (env : Env) (scope : Scope) (kind : ScopeKind) (e : Expr) :
    Pins e.nodes (env.infer scope kind e).findings := by
  induction e using Expr.induction_on_children generalizing scope kind with
  | h e ih =>
    have hvisits : Pins ((env.visits scope kind e).flatMap fun v => v.part.nodes)
        (env.found (env.visits scope kind e)) :=
      Pins.flatMap fun v hv => ih v.part (env.mem_children_of_visits hv) v.scope v.kind
    have hrule := (env.marks_rule scope kind e).pins
    have hparts : ((env.visits scope kind e).flatMap fun v => v.part.nodes).Sublist
        (e.children.flatMap Expr.nodes) := by
      rw [← List.flatMap_map]
      exact (env.sublist_children_visits scope kind e).flatMap Expr.nodes
    -- The parts report before the node, and the node is numbered before its parts.
    rw [findings_infer, Expr.nodes_eq]
    exact ((hvisits.append hrule).perm List.perm_append_comm).sublist (hparts.cons_cons e)

/-! ### Checks -/

namespace Check

variable {α β : Type} {nodes : List Expr}

theorem Within.pins {c : Check α} (h : c.Within Location.OutsideExprs) : Pins nodes c.findings :=
  .of_exprPlaces_eq_nil (List.filterMap_eq_nil_iff.mpr h)

theorem pins_bind {nodes' : List Expr} {c : Check α} {f : α → Check β} (hc : Pins nodes c.findings)
    (hf : ∀ a, Pins nodes' (f a).findings) : Pins (nodes ++ nodes') (c >>= f).findings :=
  hc.append (hf c.value)

theorem pins_bind_within {c : Check α} {f : α → Check β} (hc : Pins nodes c.findings)
    (hf : ∀ a, (f a).Within Location.OutsideExprs) : Pins nodes (c >>= f).findings := by
  have h : Pins (nodes ++ []) (c >>= f).findings := pins_bind hc fun a => (hf a).pins
  rwa [List.append_nil] at h

theorem within_bind_pins {c : Check α} {f : α → Check β} (hc : c.Within Location.OutsideExprs)
    (hf : ∀ a, Pins nodes (f a).findings) : Pins nodes (c >>= f).findings := by
  have hfirst : Pins [] c.findings := hc.pins
  exact pins_bind hfirst hf

theorem pins_lift_bind {x : Lookup α} {f : α → Check β} (h : Pins nodes (f x.value).findings) :
    Pins nodes ((liftM x : Check α) >>= f).findings := by
  rwa [findings_bind, findings_lift, List.nil_append]

theorem pins_ite {b : Prop} {_ : Decidable b} {c : Check Unit} (h : Pins nodes c.findings) :
    Pins nodes (if b then c else pure ()).findings := by
  split
  · exact h
  · exact .of_exprPlaces_eq_nil rfl

theorem pins_each {f : α → Check Unit} {as : List α} {n : α → List Expr}
    (h : ∀ a ∈ as, Pins (n a) (f a).findings) : Pins (as.flatMap n) (each f as).findings := by
  rw [findings_each]
  exact .flatMap h

end Check

/-! ### Rules -/

/-- To go through the positions of a list is to go through the list. -/
theorem flatMap_range_getElem? {α β : Type} (as : List α) (f : α → List β) :
    ((List.range as.length).flatMap fun i => as[i]?.toList.flatMap f) = as.flatMap f := by
  induction as with
  | nil => rfl
  | cons a as ih =>
    rw [List.length_cons, List.range_succ_eq_map, List.flatMap_cons, List.flatMap_map,
      List.flatMap_cons, ← ih]
    simp

/-- A check of the positions of a list is pinned by the items if each position is by its own. -/
theorem Check.pins_range {α : Type} {as : List α} {n : α → List Expr} {f : Nat → Check Unit}
    (h : ∀ i, Pins (as[i]?.toList.flatMap n) (f i).findings) :
    Pins (as.flatMap n) (each f (List.range as.length)).findings := by
  have heach := pins_each fun i (_ : i ∈ List.range as.length) => h i
  rwa [flatMap_range_getElem?] at heach

namespace Model

open Check

variable {m : Model}

theorem pins_checkIntraInvariant (policy : TernaryPolicy) (a : AggregateId) (i : Nat) :
    Pins ((m.aggregate a).value.invariants[i]?.toList.flatMap Invariant.nodes)
      (m.checkIntraInvariant policy a i).findings := by
  refine pins_lift_bind ?_
  split
  · exact .of_exprPlaces_eq_nil rfl
  · next invariant hinvariant =>
    rw [hinvariant, Option.toList_some, List.flatMap_singleton]
    refine pins_lift_bind (pins_bind_within ?_ fun type => within_ite (within_report rfl))
    exact Env.pins_infer ..

theorem pins_checkInterInvariant (policy : TernaryPolicy) (owner : AntiCorruptionId) (i : Nat) :
    Pins ((m.antiCorruption owner).value.invariants[i]?.toList.flatMap Invariant.nodes)
      (m.checkInterInvariant policy owner i).findings := by
  refine pins_lift_bind ?_
  split
  · exact .of_exprPlaces_eq_nil rfl
  · next invariant hinvariant =>
    rw [hinvariant, Option.toList_some, List.flatMap_singleton]
    refine pins_lift_bind (pins_lift_bind ?_)
    refine pins_bind_within ?_ fun type => within_ite (within_report rfl)
    exact Env.pins_infer ..

/-- **Every invariant of an aggregate is inferred once.** -/
theorem pins_checkInvariants (policy : TernaryPolicy) (a : AggregateId) :
    Pins (m.aggregate a).value.nodes (m.checkInvariants policy a).findings :=
  pins_lift_bind (pins_range fun i => pins_checkIntraInvariant policy a i)

/-- **Every invariant of an anti-corruption declaration is inferred once at most.** -/
theorem pins_checkTranslationInvariants (policy : TernaryPolicy) (owner : AntiCorruptionId) :
    Pins (m.antiCorruption owner).value.nodes
      (m.checkTranslationInvariants policy owner).findings := by
  refine pins_lift_bind ?_
  split
  · exact .of_exprPlaces_eq_nil rfl
  · exact pins_range fun i => pins_checkInterInvariant policy owner i

theorem pins_checkBody (policy : TernaryPolicy) (callable : Callable) (o : ObjectId)
    (parameters : List Parameter) (assignments : List Assigned) :
    Pins (assignments.flatMap (·.expression.nodes))
      (m.checkBody policy callable o parameters assignments).findings := by
  refine pins_lift_bind ?_
  refine within_bind_pins (within_checkKeyAssigned _ _ _ fun _ => rfl) fun _ => ?_
  refine within_bind_pins (within_checkCoverage _ (fun _ => rfl) fun _ _ _ => rfl) fun _ => ?_
  refine pins_lift_bind (pins_lift_bind (pins_lift_bind (pins_each fun a _ => ?_)))
  refine pins_lift_bind (pins_bind_within (Env.pins_infer ..) fun type => ?_)
  split
  · exact within_ite (within_report rfl)
  · exact within_pure

/-- **Every assignment of a constructor is inferred once.** -/
theorem pins_checkConstructor (policy : TernaryPolicy) (o : ObjectId) :
    Pins (((m.object o).value.constructor.map Constructor.nodes).getD [])
      (m.checkConstructor policy o).findings := by
  refine pins_lift_bind ?_
  split
  · exact .of_exprPlaces_eq_nil rfl
  · next c hc =>
    rw [hc, Option.map_some, Option.getD_some, ← c.nodes_assigned]
    refine within_bind_pins (within_checkParameters _ (fun _ => rfl) fun _ _ _ => rfl) fun _ => ?_
    exact pins_checkBody ..

theorem pins_checkOperation (policy : TernaryPolicy) (o : ObjectId) (i : Nat) :
    Pins ((m.object o).value.operations[i]?.toList.flatMap Operation.nodes)
      (m.checkOperation policy o i).findings := by
  refine pins_lift_bind ?_
  split
  · exact .of_exprPlaces_eq_nil rfl
  · next p hp =>
    rw [hp, Option.toList_some, List.flatMap_singleton, ← p.nodes_assigned]
    refine pins_ite ?_
    refine within_bind_pins (within_checkParameters _ (fun _ => rfl) fun _ _ _ => rfl) fun _ => ?_
    refine within_bind_pins ?_ fun _ => pins_checkBody ..
    exact within_checkCommands (fun _ _ => rfl) fun _ _ _ _ _ => rfl

/-- **Every assignment of an operation is inferred once at most.** -/
theorem pins_checkOperations (policy : TernaryPolicy) (o : ObjectId) :
    Pins ((m.object o).value.operations.flatMap Operation.nodes)
      (m.checkOperations policy o).findings :=
  pins_lift_bind (pins_range fun i => pins_checkOperation policy o i)

/-! ### The run -/

/-- The nodes of the expressions that a subject owns. -/
def subjectNodes (m : Model) : Subject → List Expr
  | .names | .context _ | .contextMap _ => []
  | .aggregate a => (m.aggregate a).value.nodes
  | .object o => (m.object o).value.nodes
  | .antiCorruption owner => (m.antiCorruption owner).value.nodes

theorem outside_checkAggregate (a : AggregateId) :
    (m.checkAggregate a).Within Location.OutsideExprs := by
  refine within_checkAggregate (fun _ _ _ => rfl) fun o _ e _ => ?_
  constructor
  · exact fun _ => rfl
  · exact fun _ => rfl
  · exact fun _ _ _ => rfl
  · exact fun _ _ _ => ⟨fun _ => rfl, fun _ _ => rfl⟩
  · exact fun _ _ _ => ⟨fun _ => rfl, fun _ _ => rfl⟩

/-- The rules that infer no type report outside expressions. -/
theorem pins_checkSubject (settings : Settings) (subject : Subject) :
    Pins (m.subjectNodes subject) (m.checkSubject settings subject).findings := by
  cases subject with
  | names =>
    refine pins_bind_within (pins_ite (Within.pins ?_)) fun _ => within_pure
    exact within_checkNames (fun _ _ _ => rfl) (fun _ _ _ => rfl) (fun _ _ _ => rfl)
      fun _ _ _ _ _ => rfl
  | context c =>
    refine pins_bind_within (pins_ite (Within.pins ?_)) fun _ => within_pure
    exact within_checkBoundedContext fun _ => rfl
  | contextMap h =>
    refine pins_bind_within (pins_ite (Within.pins ?_)) fun _ => within_pure
    exact within_checkContextMap (fun _ => rfl) (fun _ _ => rfl) (fun _ _ _ => rfl)
      (fun _ _ _ _ _ _ => rfl) fun _ _ _ _ _ _ _ => rfl
  | aggregate a =>
    refine within_bind_pins (within_ite (outside_checkAggregate a)) fun _ => ?_
    refine pins_bind_within (pins_ite ?_) fun _ => within_pure
    exact pins_checkInvariants settings.policy a
  | object o =>
    refine within_bind_pins (within_ite ?_) fun _ => ?_
    · exact within_checkEntity (fun _ => rfl) fun _ _ _ => rfl
    refine pins_bind (pins_ite (pins_checkConstructor settings.policy o)) fun _ => ?_
    refine pins_bind_within (pins_ite ?_) fun _ => within_pure
    exact pins_checkOperations settings.policy o
  | antiCorruption owner =>
    refine within_bind_pins (within_ite ?_) fun _ => ?_
    · exact within_checkAntiCorruption (fun _ => rfl) (fun _ _ _ => rfl) fun _ _ _ => rfl
    refine pins_bind_within (pins_ite ?_) fun _ => within_pure
    exact pins_checkTranslationInvariants settings.policy owner

/-- The subjects of a model own none but its expressions. -/
theorem subset_exprNodes : m.subjects.flatMap m.subjectNodes ⊆ m.exprNodes := by
  intro n hn
  obtain ⟨subject, hs, hn⟩ := List.mem_flatMap.mp hn
  simp only [subjects, List.mem_cons, List.mem_append, List.mem_map] at hs
  rcases hs with rfl | (((⟨c, -, rfl⟩ | ⟨h, -, rfl⟩) | ⟨a, ha, rfl⟩) | ⟨o, ho, rfl⟩) |
    ⟨ac, hac, rfl⟩
  · cases hn
  · cases hn
  · cases hn
  · exact mem_exprNodes_of_aggregate (holds_of_mem_aggregateIds ha) hn
  · exact mem_exprNodes_of_object (holds_of_mem_objectIds ho) hn
  · exact mem_exprNodes_of_antiCorruption (holds_of_mem_antiCorruptionIds hac) hn

/-- Every node is the node of a handle. -/
def Addressed (m : Model) : Prop :=
  ∀ arena, ∀ i < m.size arena, ∃ h : Handle arena, h.index = i

theorem addressed_of_size_le (h : ∀ arena, m.size arena ≤ UInt32.size) : m.Addressed := by
  intro arena i hi
  have hsize := h arena
  exact ⟨Handle.ofIndex i, Handle.index_ofIndex (by omega)⟩

/-- Where every node has a handle, the handles of an arena lead once through its nodes. -/
theorem map_firsts_node {α : Type} [Inhabited α] {arena : Arena} (nodes : List α)
    (h : ∀ i < nodes.length, ∃ k : Handle arena, k.index = i) :
    (Handle.firsts nodes.length : List (Handle arena)).map
      (fun k => (Lookup.node nodes k).value) = nodes := by
  unfold Handle.firsts
  rw [List.map_map]
  refine List.ext_getElem (by simp) fun i _ hi => ?_
  obtain ⟨k, hk⟩ := h i hi
  have hindex : (Handle.ofIndex i : Handle arena).index = i := by
    rw [← hk, Handle.ofIndex_index]
  simp [Lookup.node, hindex, hi]

theorem flatMap_firsts_node {α β : Type} [Inhabited α] {arena : Arena} (nodes : List α)
    (h : ∀ i < nodes.length, ∃ k : Handle arena, k.index = i) (f : α → List β) :
    ((Handle.firsts nodes.length : List (Handle arena)).flatMap fun k =>
      f (Lookup.node nodes k).value) = nodes.flatMap f := by
  rw [← List.flatMap_map (fun k => (Lookup.node nodes k).value) f, map_firsts_node nodes h]

/-- **The subjects of a model own its expressions,** each once. -/
theorem perm_subjectNodes (h : m.Addressed) :
    (m.subjects.flatMap m.subjectNodes).Perm m.exprNodes := by
  have haggregates : m.aggregateIds.flatMap (fun a => (m.aggregate a).value.nodes) =
      m.aggregates.flatMap Aggregate.nodes :=
    flatMap_firsts_node _ (h .aggregate) _
  have hobjects : m.objectIds.flatMap (fun o => (m.object o).value.nodes) =
      m.objects.flatMap DomainObject.nodes :=
    flatMap_firsts_node _ (h .object) _
  have hantiCorruptions : m.antiCorruptionIds.flatMap (fun a => (m.antiCorruption a).value.nodes) =
      m.antiCorruptions.flatMap AntiCorruption.nodes :=
    flatMap_firsts_node _ (h .antiCorruption) _
  have hsubjects : m.subjects.flatMap m.subjectNodes = m.aggregates.flatMap Aggregate.nodes ++
      (m.objects.flatMap DomainObject.nodes ++ m.antiCorruptions.flatMap AntiCorruption.nodes) := by
    have hnone {α : Type} (as : List α) : (as.flatMap fun _ => ([] : List Expr)) = [] :=
      List.flatMap_eq_nil_iff.mpr fun _ _ => rfl
    rw [← haggregates, ← hobjects, ← hantiCorruptions]
    simp [subjects, subjectNodes, List.flatMap_map, hnone]
  -- Objects are visited before anti-corruption declarations and numbered behind them.
  rw [hsubjects, exprNodes, List.append_assoc]
  exact (List.perm_append_comm).append_left _

theorem pins_check (settings : Settings) :
    Pins (m.subjects.flatMap m.subjectNodes) (m.check settings).findings :=
  pins_each fun subject _ => pins_checkSubject settings subject

/-! ### Numbers -/

/-- Numbers that a word can hold are distinct. -/
theorem nodup_idsFrom {n : Nat} (h : n ≤ UInt32.size) : (idsFrom 0 n).Nodup := by
  have hindex : ∀ i ∈ List.range' 0 n, (Handle.ofIndex i : ExprId).index = i := by
    intro i hi
    have hlt := List.mem_range'_1.mp hi
    exact Handle.index_ofIndex (by omega)
  refine List.Nodup.map_on (fun i hi j hj hij => ?_) List.nodup_range'
  rw [← hindex i hi, hij, hindex j hj]

/-- The expressions of a numbered model have distinct numbers if a word can count them. -/
theorem nodup_ids (hm : m.numbered = m) (hcount : m.exprNodes.length < UInt32.size) :
    (m.exprNodes.map Expr.id).Nodup := by
  have hids := m.ids_exprNodes
  rw [hm] at hids
  have hlength := congrArg List.length hids
  rw [List.length_map, idsFrom, List.length_map, List.length_range'] at hlength
  rw [hids]
  exact nodup_idsFrom (by omega)

/-- **Diagnostics in expressions identify distinct faults.** In a model that has been loaded or
built, with fewer expressions than a word can count, every number that a diagnostic names is the
number of exactly one expression, and no two diagnostics name the same feature and position of one
expression. Handles are words as well: the second half is about models in which every node is the
node of a handle, since a longer arena would be gone through from its start again. -/
theorem analyze_distinct
    (hm : (∃ text, ofText text = .ok m) ∨ ∃ calls, Builder.build calls = .ok m)
    (hcount : m.exprNodes.length < UInt32.size) (settings : Settings) :
    let places := (m.analyze settings).value.diagnostics.filterMap Diagnostic.exprPlace?
    (∀ p ∈ places, (m.exprNodes.map Expr.id).count p.1 = 1) ∧ (m.Addressed → places.Nodup) := by
  have hnumbered : m.numbered = m := by
    rcases hm with ⟨text, h⟩ | ⟨calls, h⟩
    · exact numbered_of_ofText h
    · exact numbered_of_build h
  have hnodup := nodup_ids hnumbered hcount
  have hplaces : (m.analyze settings).value.diagnostics.filterMap Diagnostic.exprPlace? =
      (m.check settings).findings.filterMap Finding.exprPlace? := by
    unfold analyze
    rw [List.filterMap_map]
    rfl
  have hpins := m.pins_check settings
  rw [hplaces]
  refine ⟨fun p hp => ?_, fun haddressed => ?_⟩
  · have hmem := List.map_subset Expr.id subset_exprNodes (hpins.mem p hp)
    exact List.count_eq_one_of_mem hnodup hmem
  · exact (hpins.perm (perm_subjectNodes haddressed)).nodup hnodup

theorem analyze_distinct_draftOrders :
    let places := (draftOrders.analyze .default).value.diagnostics.filterMap Diagnostic.exprPlace?
    Builder.build draftOrdersCalls = .ok draftOrders ∧
      draftOrders.exprNodes.length < UInt32.size ∧ draftOrders.Addressed ∧
      places = [(⟨1⟩, .properties, some 0), (⟨2⟩, .properties, some 0)] ∧
      (∀ p ∈ places, (draftOrders.exprNodes.map Expr.id).count p.1 = 1) ∧ places.Nodup := by
  intro places
  have built : Builder.build draftOrdersCalls = .ok draftOrders := rfl
  have few : draftOrders.exprNodes.length < UInt32.size := by decide
  have addressed : draftOrders.Addressed := by
    refine addressed_of_size_le fun arena => ?_
    cases arena <;> decide
  obtain ⟨once, distinct⟩ := analyze_distinct (.inr ⟨_, built⟩) few .default
  exact ⟨built, few, addressed, by decide, once, distinct addressed⟩

end Model

end DomainModel
