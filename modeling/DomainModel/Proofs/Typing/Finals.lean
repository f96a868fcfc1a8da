import DomainModel.Proofs.Typing.Chains

/-! # What final expressions accept

A `final(…)` expression of an invariant of an aggregate lists property chains that start at the root
entity. It is accepted if every chain ends on an attribute, and otherwise each chain that does not
is reported at its position, by the property that is to blame (`Model.inferType_final`).

A chain without properties ends at the root entity itself. There is no property to blame for that,
and such a chain is passed over (`Model.final_of_emptyChain`). -/

namespace DomainModel

/-! ### Chains -/

namespace Ty

def isPrimitive : Ty → Bool
  | primitive _ => true
  | _ => false

theorem isPrimitive_iff {type : Ty} : type.isPrimitive = true ↔ ∃ name, type = primitive name := by
  cases type <;> simp [isPrimitive]

end Ty

namespace Model

variable {m : Model}

/-- The chain leads from the object to an attribute. -/
def EndsOnAttribute (m : Model) (o : ObjectId) (chain : List String) : Prop :=
  ∃ name, m.Resolves o chain (.primitive name)

theorem endsOnAttribute_iff {o : ObjectId} {chain : List String} :
    m.EndsOnAttribute o chain ↔ ∃ name, (m.walk o chain).value = .ok (.primitive name) := by
  simp only [EndsOnAttribute, walk_eq_ok_iff]

instance (m : Model) (o : ObjectId) (chain : List String) : Decidable (m.EndsOnAttribute o chain) :=
  decidable_of_iff ((m.walk o chain).value.toOption.any Ty.isPrimitive = true) <| by
    rw [endsOnAttribute_iff]
    cases (m.walk o chain).value with
    | error i => simp [Except.toOption]
    | ok type => simp [Except.toOption, Ty.isPrimitive_iff]

/-- The property keeps the chain from ending on an attribute: the chain cannot be resolved from this
property on, or it resolves to something else and this is its last property. -/
inductive Blames (m : Model) (o : ObjectId) (chain : List String) (property : String) : Prop where
  | unresolved {i : Nat} (stops : m.StopsAt o chain i) (stands : chain[i]? = some property)
  | last {type : Ty} (resolves : m.Resolves o chain type) (other : ∀ name, type ≠ .primitive name)
    (stands : chain.getLast? = some property)

/-- The chains that have properties and do not end on an attribute, with their positions. -/
def faultyChains (m : Model) (o : ObjectId) (chains : List (List String)) :
    List (List String × Nat) :=
  chains.zipIdx.filter fun c => c.1 ≠ [] ∧ ¬m.EndsOnAttribute o c.1

end Model

namespace Env

variable (env : Env)

theorem offendingPosition_eq_none {root : ObjectId} {chain : List String} :
    (env.offendingPosition root chain).value = none ↔
      chain = [] ∨ env.model.EndsOnAttribute root chain := by
  rw [Model.endsOnAttribute_iff, offendingPosition, Lookup.value_bind]
  cases hwalk : (env.model.walk root chain).value with
  | error i =>
    have hlt := env.model.lt_of_walk hwalk
    have hne : chain ≠ [] := by
      rintro rfl
      cases hlt
    simp [hne]
  | ok type => cases type <;> cases chain <;> simp

/-- The offending position is that of the property to blame. -/
theorem blames_of_offendingPosition {root : ObjectId} {chain : List String} {i : Nat}
    (h : (env.offendingPosition root chain).value = some i) :
    ∃ property, chain[i]? = some property ∧ env.model.Blames root chain property := by
  rw [offendingPosition, Lookup.value_bind] at h
  cases hwalk : (env.model.walk root chain).value with
  | error j =>
    rw [hwalk] at h
    cases h
    have hstops := Model.walk_eq_error_iff.mp hwalk
    have hstands := List.getElem?_eq_getElem hstops.lt
    exact ⟨_, hstands, .unresolved hstops hstands⟩
  | ok type =>
    have hresolves := Model.walk_eq_ok_iff.mp hwalk
    rw [hwalk] at h
    have hother : ∀ name, type ≠ .primitive name := by
      rintro name rfl
      cases h
    have hposition : chain ≠ [] ∧ chain.length - 1 = i := by
      cases type <;> cases chain <;> simp_all
    obtain ⟨hne, rfl⟩ := hposition
    have hstands := List.getLast?_eq_some_getLast hne
    refine ⟨_, ?_, .last hresolves hother hstands⟩
    rw [← List.getLast?_eq_getElem?, hstands]

theorem value_checkChains (id : ExprId) (root : ObjectId) (index : Nat)
    (chains : List (List String)) :
    (env.checkChains id root index chains).value = true ↔
      ∀ chain ∈ chains, chain ≠ [] → env.model.EndsOnAttribute root chain := by
  induction chains generalizing index with
  | nil => simp [checkChains]
  | cons chain chains ih =>
    have hfirst : (env.offendingPosition root chain).value.isNone = true ↔
        (chain ≠ [] → env.model.EndsOnAttribute root chain) := by
      rw [Option.isNone_iff_eq_none, offendingPosition_eq_none, or_iff_not_imp_left]
    rw [List.forall_mem_cons, ← hfirst, ← ih (index + 1), checkChains]
    cases hoffending : (env.offendingPosition root chain).value <;> simp [hoffending]

/-- One report for each faulty chain, in their order. -/
theorem findings_checkChains (id : ExprId) (root : ObjectId) (index : Nat)
    (chains : List (List String)) :
    List.Forall₂
      (fun c finding => ∃ property, env.model.Blames root c.1 property ∧
        finding = ⟨.notEntityProperty property, .expr id, .finalElements, some c.2⟩)
      ((chains.zipIdx index).filter fun c => c.1 ≠ [] ∧ ¬env.model.EndsOnAttribute root c.1)
      (env.checkChains id root index chains).findings := by
  induction chains generalizing index with
  | nil => exact .nil
  | cons chain chains ih =>
    rw [List.zipIdx_cons]
    cases hoffending : (env.offendingPosition root chain).value with
    | none =>
      have hfindings : (env.checkChains id root index (chain :: chains)).findings =
          (env.checkChains id root (index + 1) chains).findings := by
        rw [checkChains]
        simp [hoffending]
      have hfine := env.offendingPosition_eq_none.mp hoffending
      rw [hfindings, List.filter_cons_of_neg (by simpa [or_iff_not_imp_left] using hfine)]
      exact ih (index + 1)
    | some i =>
      obtain ⟨property, hstands, hblames⟩ := env.blames_of_offendingPosition hoffending
      have hfindings : (env.checkChains id root index (chain :: chains)).findings =
          ⟨.notEntityProperty property, .expr id, .finalElements, some index⟩ ::
            (env.checkChains id root (index + 1) chains).findings := by
        rw [checkChains]
        simp [hoffending, Lookup.item, hstands]
      have hfaulty : ¬(chain = [] ∨ env.model.EndsOnAttribute root chain) := by
        rw [← env.offendingPosition_eq_none, hoffending]
        exact Option.some_ne_none i
      rw [hfindings, List.filter_cons_of_pos (by simpa using hfaulty)]
      exact .cons ⟨property, hblames, rfl⟩ (ih (index + 1))

theorem value_root (id : ExprId) (feature : Feature) :
    (env.root id feature).value = env.aggregate.bind fun a => (env.model.rootEntity a).value := by
  unfold root
  cases env.aggregate with
  | none => rfl
  | some a =>
    simp only [Check.value_bind, Check.value_lift, Option.bind_some]
    cases (env.model.rootEntity a).value <;> rfl

/-- Where the root entity is known, a `final(…)` is left to its chains. -/
theorem finalResult_of_root {id : ExprId} {root : ObjectId} (chains : List (List String))
    (hroot : (env.aggregate.bind fun a => (env.model.rootEntity a).value) = some root) :
    (env.finalResult id .intraInvariant chains).findings =
        (env.checkChains id root 0 chains).findings ∧
      ((env.finalResult id .intraInvariant chains).value = .final ↔
        (env.checkChains id root 0 chains).value = true) := by
  have hvalue := env.value_root id .finalElements
  rw [hroot] at hvalue
  have hsilent : (env.root id .finalElements).findings = [] :=
    (env.stops_root (P := fun _ => True) trivial).findings_eq_nil (by simp [hvalue])
  unfold finalResult
  constructor
  · simp [hvalue, hsilent]
  · cases h : (env.checkChains id root 0 chains).value <;> simp [hvalue, h]

theorem finalResult_eq_final {id : ExprId} {kind : ScopeKind} {chains : List (List String)}
    (h : (env.finalResult id kind chains).value = .final) :
    kind = .intraInvariant ∧
      ∃ root, (env.aggregate.bind fun a => (env.model.rootEntity a).value) = some root := by
  unfold finalResult at h
  split at h
  · cases h
  · next hkind =>
    refine ⟨not_not.mp hkind, ?_⟩
    rw [Check.value_bind, value_root] at h
    cases hroot : env.aggregate.bind fun a => (env.model.rootEntity a).value with
    | none =>
      rw [hroot] at h
      cases h
    | some root => exact ⟨root, rfl⟩

/-- Where the root entity is known, each faulty chain is reported. -/
theorem findings_infer_final (scope : Scope) (id : ExprId) {root : ObjectId}
    (chains : List (List String))
    (hroot : (env.aggregate.bind fun a => (env.model.rootEntity a).value) = some root) :
    List.Forall₂
      (fun c finding => ∃ property, env.model.Blames root c.1 property ∧
        finding = ⟨.notEntityProperty property, .expr id, .finalElements, some c.2⟩)
      (env.model.faultyChains root chains)
      (env.infer scope .intraInvariant ⟨id, .final chains⟩).findings := by
  rw [infer, (env.finalResult_of_root chains hroot).1]
  exact env.findings_checkChains id root 0 chains

/-- A `final(…)` is accepted for its place, its root entity and its chains. -/
theorem infer_final_iff (scope : Scope) (kind : ScopeKind) (id : ExprId)
    (chains : List (List String)) :
    (env.infer scope kind ⟨id, .final chains⟩).value = .final ∧
        (env.infer scope kind ⟨id, .final chains⟩).findings = [] ↔
      kind = .intraInvariant ∧
        ∃ root, (env.aggregate.bind fun a => (env.model.rootEntity a).value) = some root ∧
          ∀ chain ∈ chains, chain ≠ [] → env.model.EndsOnAttribute root chain := by
  constructor
  · rintro ⟨hvalue, -⟩
    rw [infer] at hvalue
    obtain ⟨rfl, root, hroot⟩ := finalResult_eq_final env hvalue
    refine ⟨rfl, root, hroot, ?_⟩
    rwa [(env.finalResult_of_root chains hroot).2, value_checkChains] at hvalue
  · rintro ⟨rfl, root, hroot, hends⟩
    have hreports := env.findings_infer_final scope id chains hroot
    have hnone : env.model.faultyChains root chains = [] := by
      rw [Model.faultyChains, List.filter_eq_nil_iff]
      intro c hc
      simpa using hends c.1 (List.fst_mem_of_mem_zipIdx hc)
    rw [hnone, List.forall₂_nil_left_iff] at hreports
    refine ⟨?_, hreports⟩
    rwa [infer, (env.finalResult_of_root chains hroot).2, value_checkChains]

end Env

namespace Model

/-- **A `final(…)` accepts chains that end on an attribute.** It has the type `final` and nothing is
reported exactly if it stands in an invariant of an aggregate, the aggregate has a root entity, and
every chain with properties leads from there to an attribute. In such a place each chain with
properties that does not lead to an attribute is reported once, at its position and in the order of
the chains, with the property that is to blame. -/
theorem inferType_final (m : Model) (aggregate : Option AggregateId) (policy : TernaryPolicy)
    (scope : Scope) (kind : ScopeKind) (id : ExprId) (chains : List (List String)) :
    let run := m.inferType aggregate policy scope kind ⟨id, .final chains⟩
    let root? := aggregate.bind fun a => (m.rootEntity a).value
    (run.value = .final ∧ run.findings = [] ↔ kind = .intraInvariant ∧
        ∃ root, root? = some root ∧ ∀ chain ∈ chains, chain ≠ [] → m.EndsOnAttribute root chain) ∧
      (kind = .intraInvariant → ∀ root, root? = some root →
        List.Forall₂
          (fun c finding => ∃ property, m.Blames root c.1 property ∧
            finding = ⟨.notEntityProperty property, .expr id, .finalElements, some c.2⟩)
          (m.faultyChains root chains) run.findings) ∧
      (m.InRange → (∀ a ∈ aggregate, m.Holds a.any) → run.misses = []) := by
  intro run root?
  have hmisses : m.InRange → (∀ a ∈ aggregate, m.Holds a.any) → run.misses = [] :=
    fun hm ha => (total_inferType hm ha policy scope kind _).misses_eq
  -- the environment is one of `m` and of the aggregate, whether there is an aggregate or not
  cases aggregate with
  | none => exact ⟨Env.infer_final_iff _ scope kind id chains, by simp [root?], hmisses⟩
  | some a =>
    refine ⟨Env.infer_final_iff _ scope kind id chains, ?_, hmisses⟩
    rintro rfl root hroot
    exact (Env.forAggregate m (some a) policy).value.findings_infer_final scope id chains hroot

/-- The id is an attribute. The lines are a collection, and a price of them cannot be resolved. -/
theorem inferType_final_orders :
    let run := fun chains =>
      orders.inferType (some ⟨0⟩) .boolean .empty .intraInvariant ⟨⟨0⟩, .final chains⟩
    ((run [["id"]]).value = .final ∧ (run [["id"]]).findings = []) ∧
      (run [["lines"], ["id"], ["lines", "price"]]).value ≠ .final ∧
      List.Forall₂
        (fun c finding => ∃ property, orders.Blames ⟨0⟩ c.1 property ∧
          finding = ⟨.notEntityProperty property, .expr ⟨0⟩, .finalElements, some c.2⟩)
        [(["lines"], 0), (["lines", "price"], 2)]
        (run [["lines"], ["id"], ["lines", "price"]]).findings := by
  intro run
  obtain ⟨haccepted, -, -⟩ :=
    orders.inferType_final (some ⟨0⟩) .boolean .empty .intraInvariant ⟨0⟩ [["id"]]
  obtain ⟨-, hreports, -⟩ := orders.inferType_final (some ⟨0⟩) .boolean .empty .intraInvariant ⟨0⟩
    [["lines"], ["id"], ["lines", "price"]]
  exact ⟨haccepted.mpr ⟨rfl, ⟨0⟩, by decide, by decide⟩, by decide, hreports rfl ⟨0⟩ (by decide)⟩

/-- **A chain without properties passes,** although it ends on the root entity and on no
attribute. -/
theorem final_of_emptyChain :
    let run := orders.inferType (some ⟨0⟩) .boolean .empty .intraInvariant ⟨⟨0⟩, .final [[]]⟩
    (orders.rootEntity ⟨0⟩).value = some ⟨0⟩ ∧ ¬orders.EndsOnAttribute ⟨0⟩ [] ∧
      run.value = .final ∧ run.findings = [] := by
  decide

end Model

end DomainModel
