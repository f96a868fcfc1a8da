import Mathlib.Data.List.FinRange
import Mathlib.Data.List.Perm.Basic
import DomainModel.Proofs.Callables
import DomainModel.Proofs.Clean.Constructor
import DomainModel.Proofs.Typing.Locality

/-! # The order of parameters

Permute the parameters of a constructor, whose names are distinct, and leave the rest as it is. Each
parameter is judged by itself, the rule that a value object takes the root asks for some parameter,
and the right sides look up parameters by their names; so all these rules report the same, at the
new positions of the parameters (`Finding.moved`). The rule on the key is an exception: it goes for
the first parameter that takes the root entity, and for no other. The same is reported exactly if
the key is copied from the first root before and after, or neither before nor after
(`Model.checkConstructor_permuted`). That is so if one parameter takes the root at most; of two, the
order decides (`Model.two_roots_order_matters`). -/

namespace DomainModel

/-! ### Moved parameters -/

/-- The position of a parameter after a permutation. -/
def NodeRef.moved {n : Nat} (σ : Equiv.Perm (Fin n)) : NodeRef → NodeRef
  | parameter c i => parameter c (if h : i < n then σ ⟨i, h⟩ else i)
  | node => node

/-- What is found about a parameter, found at its position after a permutation. -/
def Finding.moved {n : Nat} (σ : Equiv.Perm (Fin n)) : Finding → Finding
  | ⟨problem, node, feature, i⟩ => ⟨problem, node.moved σ, feature, i⟩

/-- Nothing is said about parameters in a body. -/
theorem translatesBody_moved {n : Nat} (σ : Equiv.Perm (Fin n)) (callable : Callable) :
    TranslatesBody (Finding.moved σ) id callable callable :=
  ⟨fun _ _ _ _ => rfl, fun _ _ => rfl, fun _ _ _ => rfl, fun _ _ _ => rfl⟩

theorem translatesBody_refl (callable : Callable) : TranslatesBody id id callable callable :=
  ⟨fun _ _ _ _ => rfl, fun _ _ => rfl, fun _ _ _ => rfl, fun _ _ _ => rfl⟩

section

variable {α : Type}

theorem zipIdx_ofFn {n : Nat} (f : Fin n → α) :
    (List.ofFn f).zipIdx = (List.finRange n).map fun i => (f i, i.val) :=
  List.ext_getElem (by simp) fun i _ _ => by simp

theorem perm_ofFn_moved {as : List α} (σ : Equiv.Perm (Fin as.length)) :
    (List.ofFn fun i => as.get (σ.symm i)).Perm as := by
  have hperm := Equiv.Perm.ofFn_comp_perm σ.symm as.get
  rwa [List.ofFn_get] at hperm

/-- Items that are checked each by itself may be permuted. -/
theorem Check.perm_eachIdx {as : List α} (σ : Equiv.Perm (Fin as.length))
    {f' f : α → Nat → Check Unit} {g : Finding → Finding}
    (h : ∀ i, (f' (as.get i) (σ i)).findings = (f (as.get i) i).findings.map g) :
    (eachIdx f' (List.ofFn fun i => as.get (σ.symm i))).findings.Perm
      ((eachIdx f as).findings.map g) := by
  have hbefore : as.zipIdx = (List.finRange as.length).map fun i => (as.get i, i.val) := by
    rw [← zipIdx_ofFn, List.ofFn_get]
  have hafter : (List.ofFn fun i => as.get (σ.symm i)).zipIdx.Perm
      ((List.finRange as.length).map fun i => (as.get i, (σ i).val)) := by
    rw [zipIdx_ofFn]
    have hmoved := (σ.map_finRange_perm).map fun i => (as.get (σ.symm i), i.val)
    simpa [Function.comp_def] using hmoved.symm
  rw [eachIdx, eachIdx, findings_each, findings_each, List.map_flatMap]
  refine (hafter.flatMap fun _ _ => .refl _).trans (List.Perm.of_eq ?_)
  rw [hbefore, List.flatMap_map, List.flatMap_map]
  exact List.flatMap_congr fun i _ => h i

end

namespace Model

open Check

variable {m' m : Model}

/-! ### The key of the root entity -/

/-- **The key is copied:** if there is a root entity with a key, the first parameter that takes it
has the key copied by an assignment. An event need not copy it. -/
def KeyCopied (m : Model) (o : ObjectId) (parameters : List Parameter)
    (assignments : List ConstructorAssignment) : Prop :=
  (m.object o).value.kind.isDomainEvent = false → ∀ root key p,
    (m.rootEntity (m.object o).value.aggregate).value = some root →
    (m.keyAttribute root).value = some key →
    m.TakesRootFirst (m.object o).value.aggregate parameters p →
    ∃ x ∈ assignments, CopiesProperty p.name (m.attributeOf key).value.name x.expression

theorem findings_checkKeyAssigned_eq_nil {callable : Callable} {o : ObjectId}
    {parameters : List Parameter} {c : Constructor} :
    (m.checkKeyAssigned callable (m.object o).value parameters c.assigned).findings = [] ↔
      m.KeyCopied o parameters c.assignments := by
  rw [findings_eq_nil_iff, avoids_checkKeyAssigned]
  simp only [exists_assigned, KeyCopied]

/-- The rule on the key has one thing to report, whatever the parameters are. -/
theorem findings_checkKeyAssigned (m : Model) (callable : Callable) (object : DomainObject) :
    ∃ key, ∀ parameters assignments,
      (m.checkKeyAssigned callable object parameters assignments).findings = [] ∨
        (m.checkKeyAssigned callable object parameters assignments).findings =
          [⟨.keyNotAssigned key, .callable callable, .name, none⟩] := by
  cases hkey : (m.rootKey object.aggregate).value with
  | none =>
    refine ⟨"", fun parameters assignments => .inl ?_⟩
    unfold checkKeyAssigned
    split
    · rfl
    · rw [findings_bind, findings_lift, value_lift, hkey]
      rfl
  | some found =>
    refine ⟨(m.attributeOf found.2).value.name, fun parameters assignments => ?_⟩
    unfold checkKeyAssigned
    split
    · exact .inl rfl
    · rw [findings_bind, findings_lift, value_lift, hkey, List.nil_append, findings_bind,
        findings_lift, List.nil_append]
      dsimp only
      split
      · exact .inl rfl
      · rw [findings_bind, findings_lift, List.nil_append, findings_bind, findings_lift,
          List.nil_append]
        split
        · exact .inr rfl
        · exact .inl rfl

/-- The rule on the key of a constructor reports exactly if the key is not copied. -/
theorem findings_checkKeyAssigned_constructor (m : Model) (o : ObjectId) (c : Constructor) :
    ∃ key, ∀ parameters,
      let found := (m.checkKeyAssigned (.constructor o) (m.object o).value parameters
        c.assigned).findings
      (m.KeyCopied o parameters c.assignments → found = []) ∧
        (¬m.KeyCopied o parameters c.assignments →
          found = [⟨.keyNotAssigned key, .callable (.constructor o), .name, none⟩]) := by
  obtain ⟨key, hreports⟩ := m.findings_checkKeyAssigned (.constructor o) (m.object o).value
  refine ⟨key, fun parameters => ⟨findings_checkKeyAssigned_eq_nil.mpr, fun hnot => ?_⟩⟩
  exact (hreports parameters c.assigned).resolve_left (mt findings_checkKeyAssigned_eq_nil.mp hnot)

/-- Where one parameter takes the root entity at most, it is the first one in any order. -/
theorem takesRootFirst_iff {a : AggregateId} {parameters : List Parameter}
    (hone : ∀ p ∈ parameters, ∀ q ∈ parameters, m.TakesRoot a p → m.TakesRoot a q → p = q)
    {p : Parameter} : m.TakesRootFirst a parameters p ↔ p ∈ parameters ∧ m.TakesRoot a p := by
  constructor
  · rintro ⟨htakes, before, after, rfl, -⟩
    exact ⟨List.mem_append_right _ List.mem_cons_self, htakes⟩
  · rintro ⟨hp, htakes⟩
    rw [← find?_isRootParameter_eq_some_iff]
    cases hfind : (Lookup.find? (m.isRootParameter a) parameters).value with
    | none =>
      rw [Lookup.value_find?, List.find?_eq_none] at hfind
      exact absurd (isRootParameter_iff.mpr htakes) (hfind p hp)
    | some q =>
      obtain ⟨htakes', before, after, hparameters, -⟩ := find?_isRootParameter_eq_some_iff.mp hfind
      have hq : q ∈ parameters := by
        rw [hparameters]
        exact List.mem_append_right _ List.mem_cons_self
      rw [hone q hq p hp htakes' htakes]

/-- Where one parameter takes the root entity at most, the order of the parameters is of no
importance for the key. -/
theorem keyCopied_perm {o : ObjectId} {parameters' parameters : List Parameter}
    (hperm : parameters'.Perm parameters)
    (hone : ∀ p ∈ parameters, ∀ q ∈ parameters, m.TakesRoot (m.object o).value.aggregate p →
      m.TakesRoot (m.object o).value.aggregate q → p = q)
    (assignments : List ConstructorAssignment) :
    m.KeyCopied o parameters' assignments ↔ m.KeyCopied o parameters assignments := by
  have hone' : ∀ p ∈ parameters', ∀ q ∈ parameters', m.TakesRoot (m.object o).value.aggregate p →
      m.TakesRoot (m.object o).value.aggregate q → p = q :=
    fun p hp q hq => hone p (hperm.mem_iff.mp hp) q (hperm.mem_iff.mp hq)
  simp only [KeyCopied, takesRootFirst_iff hone', takesRootFirst_iff hone, hperm.mem_iff]

/-! ### Permuted parameters -/

/-- What is found in a constructor, the rule on the key apart. -/
def findingsButKey (m : Model) (policy : TernaryPolicy) (o : ObjectId) (c : Constructor) :
    List Finding :=
  (m.checkParameters (.constructor o) (m.object o).value c.parameters).findings ++
    ((m.checkCoverage (.constructor o) o c.assigned).findings ++
      (m.checkAssignmentTypes policy (.constructor o) o c.parameters c.assigned).findings)

theorem perm_findings_checkConstructor (policy : TernaryPolicy) {o : ObjectId} {c : Constructor}
    (hconstructor : (m.object o).value.constructor = some c) :
    (m.checkConstructor policy o).findings.Perm
      ((m.checkKeyAssigned (.constructor o) (m.object o).value c.parameters c.assigned).findings ++
        m.findingsButKey policy o c) := by
  rw [checkConstructor, findings_bind, findings_lift, List.nil_append, value_lift, hconstructor]
  dsimp only
  rw [findings_bind, checkBody, findings_bind, findings_lift, List.nil_append, findings_bind,
    findings_bind]
  exact List.perm_append_comm_assoc _ _ _

theorem map_renumbered_id (assignments : List Assigned) :
    assignments.map (Assigned.renumbered id) = assignments := by
  have hid : Assigned.renumbered id = id := funext fun a => by simp [Assigned.renumbered]
  rw [hid, List.map_id]

/-- Parameters with distinct names declare the same variables in any order. -/
theorem lookup_parameterScope_perm {parameters' parameters : List Parameter}
    (hperm : parameters'.Perm parameters) (hnames : (parameters.map (·.name)).Nodup)
    (name : String) :
    (m.parameterScope parameters').value.lookup name =
      (m.parameterScope parameters).value.lookup name := by
  simp only [parameterScope, Lookup.value_bind, Lookup.value_map, Lookup.value_pure]
  refine Scope.lookup_root_perm (hperm.map _) ?_ name
  rw [List.map_map]
  exact hnames

section

variable (h : m'.outline = m.outline)

include h

theorem perm_checkParameters {parameters : List Parameter}
    (σ : Equiv.Perm (Fin parameters.length)) (o : ObjectId) :
    (m'.checkParameters (.constructor o) (m'.object o).value
        (List.ofFn fun i => parameters.get (σ.symm i))).findings.Perm
      ((m.checkParameters (.constructor o) (m.object o).value parameters).findings.map
        (Finding.moved σ)) := by
  have hvalueObject : (m'.object o).value.isValueObject = (m.object o).value.isValueObject :=
    object_of_outline h DomainObject.isValueObject (fun _ => rfl) o
  unfold checkParameters
  rw [owner_of_outline h, hvalueObject, findings_bind, findings_bind, List.map_append]
  refine List.Perm.append (Check.perm_eachIdx σ fun i => ?_) (.of_eq (Follows.findings ?_))
  · have hplace : ∀ problem feature, Finding.moved σ
        ⟨problem, .parameter (.constructor o) i, feature, none⟩ =
          ⟨problem, .parameter (.constructor o) (σ i), feature, none⟩ := by
      intro problem feature
      simp [Finding.moved, NodeRef.moved]
    refine Follows.findings (follows_lift_bind ?_ fun accepted => ?_)
    · exact acceptsParameter_of_outline h _ _ _
    · exact (follows_report (hplace _ _)).ite _
  · refine Follows.ite (follows_lift_bind ?_ fun found => (follows_report rfl).ite _) _
    simp only [Lookup.value_any, isRootParameter_of_outline h]
    exact (perm_ofFn_moved σ).any_eq

/-- **The rule on the key apart,** the same is reported at the new positions. -/
theorem perm_findingsButKey (policy : TernaryPolicy) (o : ObjectId) {c' c : Constructor}
    (names : (c.parameters.map (·.name)).Nodup) (σ : Equiv.Perm (Fin c.parameters.length))
    (parameters : c'.parameters = List.ofFn fun i => c.parameters.get (σ.symm i))
    (assigned : c'.assigned = c.assigned) :
    (m'.findingsButKey policy o c').Perm
      ((m.findingsButKey policy o c).map (Finding.moved σ)) := by
  have hcoverage := follows_checkCoverage h (translatesBody_moved σ (.constructor o)) o c.assigned
  have htypes := follows_checkAssignmentTypes h (translatesBody_moved σ (.constructor o)) policy o
    (lookup_parameterScope_perm (perm_ofFn_moved σ) names) c.assigned
  unfold findingsButKey
  rw [assigned, parameters, List.map_append, List.map_append]
  refine (perm_checkParameters h σ o).append (.of_eq ?_)
  rw [← hcoverage.findings, ← htypes.findings, map_renumbered_id]

/-- Both models have the same to say about the key. -/
theorem findings_checkKeyAssigned_of_outline (callable : Callable) (o : ObjectId)
    (parameters : List Parameter) (assignments : List Assigned) :
    (m'.checkKeyAssigned callable (m'.object o).value parameters assignments).findings =
      (m.checkKeyAssigned callable (m.object o).value parameters assignments).findings := by
  have hfollows := follows_checkKeyAssigned h (translatesBody_refl callable) o parameters
    assignments
  rw [map_renumbered_id] at hfollows
  exact hfollows.findings.trans (List.map_id _)

end

/-- What is found about the key is at no parameter. -/
theorem map_moved_checkKeyAssigned {n : Nat} (σ : Equiv.Perm (Fin n)) (callable : Callable)
    (object : DomainObject) (parameters : List Parameter) (assignments : List Assigned) :
    (m.checkKeyAssigned callable object parameters assignments).findings.map (Finding.moved σ) =
      (m.checkKeyAssigned callable object parameters assignments).findings := by
  obtain ⟨key, hreports⟩ := m.findings_checkKeyAssigned callable object
  rcases hreports parameters assignments with h | h
  · rw [h]
    rfl
  · rw [h]
    rfl

/-- **Parameters may be permuted, except for the key.** Let `σ` move the parameters of a
constructor, whose names are distinct, and let nothing else change. The same is reported at the new
positions if the key is copied from the first parameter that takes the root entity both before and
after, or neither before nor after; otherwise the report on the key is the only difference. Where
one parameter takes the root entity at most, the order makes no difference. -/
theorem checkConstructor_permuted (m' m : Model) (outline : m'.outline = m.outline)
    (policy : TernaryPolicy) (o : ObjectId) (c' c : Constructor)
    (hconstructor' : (m'.object o).value.constructor = some c')
    (hconstructor : (m.object o).value.constructor = some c)
    (names : (c.parameters.map (·.name)).Nodup) (σ : Equiv.Perm (Fin c.parameters.length))
    (parameters : c'.parameters = List.ofFn fun i => c.parameters.get (σ.symm i))
    (assignments : c'.assignments = c.assignments) :
    let before := (m.checkConstructor policy o).findings.map (Finding.moved σ)
    let after := (m'.checkConstructor policy o).findings
    let copied := fun parameters => m.KeyCopied o parameters c.assignments
    let takesRoot := m.TakesRoot (m.object o).value.aggregate
    (∃ key, let report : Finding := ⟨.keyNotAssigned key, .callable (.constructor o), .name, none⟩
      ((copied c'.parameters ↔ copied c.parameters) → after.Perm before) ∧
      (copied c'.parameters → ¬copied c.parameters → (report :: after).Perm before) ∧
      (¬copied c'.parameters → copied c.parameters → after.Perm (report :: before))) ∧
    ((∀ p ∈ c.parameters, ∀ q ∈ c.parameters, takesRoot p → takesRoot q → p = q) →
      after.Perm before) := by
  intro before after copied takesRoot
  have hassigned : c'.assigned = c.assigned := by
    rw [Constructor.assigned, assignments]
    rfl
  let others := (m.findingsButKey policy o c).map (Finding.moved σ)
  let about := fun parameters =>
    (m.checkKeyAssigned (.constructor o) (m.object o).value parameters c.assigned).findings
  have hafter : after.Perm (about c'.parameters ++ others) := by
    have hperm := perm_findings_checkConstructor policy hconstructor'
    rw [findings_checkKeyAssigned_of_outline outline, hassigned] at hperm
    exact hperm.trans
      ((perm_findingsButKey outline policy o names σ parameters hassigned).append_left _)
  have hbefore : before.Perm (about c.parameters ++ others) := by
    have hperm := (perm_findings_checkConstructor policy hconstructor).map (Finding.moved σ)
    rwa [List.map_append, map_moved_checkKeyAssigned] at hperm
  obtain ⟨key, hkey⟩ := m.findings_checkKeyAssigned_constructor o c
  have hsame : (copied c'.parameters ↔ copied c.parameters) → after.Perm before := by
    intro hiff
    have habout : about c'.parameters = about c.parameters := by
      by_cases h : copied c.parameters
      · exact ((hkey _).1 (hiff.mpr h)).trans ((hkey _).1 h).symm
      · exact ((hkey _).2 (mt hiff.mp h)).trans ((hkey _).2 h).symm
    rw [habout] at hafter
    exact hafter.trans hbefore.symm
  refine ⟨⟨key, hsame, fun h' h => ?_, fun h' h => ?_⟩, fun hone => hsame ?_⟩
  · rw [show about c'.parameters = [] from (hkey _).1 h'] at hafter
    rw [show about c.parameters = _ from (hkey _).2 h] at hbefore
    exact (hafter.cons _).trans hbefore.symm
  · rw [show about c'.parameters = _ from (hkey _).2 h'] at hafter
    rw [show about c.parameters = [] from (hkey _).1 h] at hbefore
    exact hafter.trans (hbefore.symm.cons _)
  · exact keyCopied_perm (parameters ▸ perm_ofFn_moved σ) hone c.assignments

/-- A transfer takes over the id of the account that pays. -/
def transfer (parameters : List Parameter) : Constructor :=
  ⟨parameters, [⟨"payer", ⟨⟨0⟩, .path (.variable "payer") ["id"] []⟩⟩]⟩

/-- Accounts, and transfers that are made from the given parameters. -/
def transfers (parameters : List Parameter) : Model :=
  { Model.empty with
    aggregates := [⟨"Accounts", none, [⟨0⟩, ⟨1⟩], []⟩]
    objects :=
      [⟨"Account", ⟨0⟩, .entity ⟨none, none⟩, true, [⟨0⟩], [], none, none, []⟩,
        ⟨"Transfer", ⟨0⟩, .valueObject, false, [⟨1⟩], [], some (transfer parameters), none, []⟩]
    attributes := [⟨"id", "String", ⟨0⟩, true, none⟩, ⟨"payer", "String", ⟨1⟩, false, none⟩] }

/-- A single account that pays. -/
def payer : Parameter := ⟨"payer", ⟨.none, .domainObject (some ⟨0⟩)⟩⟩

/-- Several accounts that are paid, which no constructor takes. -/
def payees : Parameter := ⟨"payees", ⟨.list, .domainObject (some ⟨0⟩)⟩⟩

/-- A single account that is paid. -/
def payee : Parameter := ⟨"payee", ⟨.none, .domainObject (some ⟨0⟩)⟩⟩

/-- The parameter that is at fault is reported at its new position. -/
theorem checkConstructor_permuted_payees :
    let σ : Equiv.Perm (Fin 2) := Equiv.swap 0 1
    let before := ((transfers [payer, payees]).checkConstructor .boolean ⟨1⟩).findings
    let after := ((transfers [payees, payer]).checkConstructor .boolean ⟨1⟩).findings
    before =
        [⟨.parameterType .constructor, .parameter (.constructor ⟨1⟩) 1, .parameterType, none⟩] ∧
      after.Perm (before.map (Finding.moved σ)) := by
  intro σ before after
  have only : ∀ p ∈ [payer, payees],
      ((transfers [payer, payees]).isRootParameter ⟨0⟩ p).value = true → p = payer := by decide
  have permuted := checkConstructor_permuted (transfers [payees, payer]) (transfers [payer, payees])
    rfl .boolean ⟨1⟩ (transfer [payees, payer]) (transfer [payer, payees]) rfl rfl (by decide) σ
    (by decide) rfl
  refine ⟨by decide, permuted.2 fun p hp q hq takes takes' => ?_⟩
  rw [only p hp (isRootParameter_iff.mpr takes), only q hq (isRootParameter_iff.mpr takes')]

/-- **Of two parameters that take the root, the first decides.** The id of the payer is copied. This
is in order if the payer comes first, and not if the payee does. -/
theorem two_roots_order_matters :
    let c := transfer [payer, payee]
    let c' := transfer [payee, payer]
    (c.parameters.map (·.name)).Nodup ∧ c'.parameters.Perm c.parameters ∧
      c'.assignments = c.assignments ∧
      (transfers c'.parameters).outline = (transfers c.parameters).outline ∧
      ((transfers c.parameters).checkConstructor .boolean ⟨1⟩).findings = [] ∧
      ((transfers c'.parameters).checkConstructor .boolean ⟨1⟩).findings =
        [⟨.keyNotAssigned "id", .callable (.constructor ⟨1⟩), .name, none⟩] :=
  ⟨by decide, by decide, rfl, rfl, by decide, by decide⟩

end Model

end DomainModel
