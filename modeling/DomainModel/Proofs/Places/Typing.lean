import DomainModel.Proofs.Places.Rules
import DomainModel.Proofs.Typing.Visits

/-! # Where the rules on expressions report

What is found in an expression is at the places of its nodes (`Env.within_infer`). So the rules that
infer types report within `P` if `P` holds of the places of the nodes they go through, and of the
places of their own. -/

namespace DomainModel

open Check

variable {P : Location → Prop}

/-- All places of the nodes have the property. -/
def AtNodes (P : Location → Prop) (nodes : List Expr) : Prop :=
  ∀ n ∈ nodes, ∀ l, n.Place l → P l

/-- **What is found in an expression is at the places of its nodes.** -/
theorem Env.within_infer (env : Env) (scope : Scope) (kind : ScopeKind) {e : Expr}
    (h : AtNodes P e.nodes) : (env.infer scope kind e).Within P := by
  induction e using Expr.induction_on_children generalizing scope kind with
  | h e ih =>
    intro f hf
    rw [findings_infer, List.mem_append] at hf
    rcases hf with hf | hf
    · obtain ⟨v, hv, hf⟩ := List.mem_flatMap.mp hf
      have hpart := env.mem_children_of_visits hv
      refine ih v.part hpart v.scope v.kind ?_ f hf
      exact fun n hn => h n (Expr.mem_nodes_of_child hpart hn)
    · exact h e e.mem_nodes_self _ ((env.marks_rule scope kind e).place f hf)

namespace Model

variable {m : Model}

/-! ### Invariants -/

theorem within_checkIntraInvariant (policy : TernaryPolicy) {a : AggregateId} (index : Nat)
    (h : ∀ i < (m.aggregate a).value.invariants.length, Everywhere P (.intraInvariant a i))
    (hnodes : AtNodes P (m.aggregate a).value.nodes) :
    (m.checkIntraInvariant policy a index).Within P := by
  refine within_lift_bind ?_
  split
  · exact within_pure
  · next invariant hinvariant =>
    have hlt := (List.getElem?_eq_some_iff.mp hinvariant).1
    refine within_lift_bind (Within.bind (Env.within_infer _ _ _ ?_) fun type => ?_)
    · intro n hn
      exact hnodes n (List.mem_flatMap.mpr ⟨invariant, List.mem_of_getElem? hinvariant, hn⟩)
    · exact within_ite (within_report (h index hlt _))

theorem within_checkInterInvariant (policy : TernaryPolicy) {owner : AntiCorruptionId}
    (index : Nat)
    (h : ∀ i < (m.antiCorruption owner).value.invariants.length,
      Everywhere P (.interInvariant owner i))
    (hnodes : AtNodes P (m.antiCorruption owner).value.nodes) :
    (m.checkInterInvariant policy owner index).Within P := by
  refine within_lift_bind ?_
  split
  · exact within_pure
  · next invariant hinvariant =>
    have hlt := (List.getElem?_eq_some_iff.mp hinvariant).1
    refine within_lift_bind (within_lift_bind ?_)
    refine Within.bind (Env.within_infer _ _ _ ?_) fun type => ?_
    · intro n hn
      exact hnodes n (List.mem_flatMap.mpr ⟨invariant, List.mem_of_getElem? hinvariant, hn⟩)
    · exact within_ite (within_report (h index hlt _))

theorem within_checkInvariants (policy : TernaryPolicy) {a : AggregateId}
    (h : ∀ i < (m.aggregate a).value.invariants.length, Everywhere P (.intraInvariant a i))
    (hnodes : AtNodes P (m.aggregate a).value.nodes) : (m.checkInvariants policy a).Within P :=
  within_lift_bind (within_each fun index _ => within_checkIntraInvariant policy index h hnodes)

theorem within_checkTranslationInvariants (policy : TernaryPolicy) {owner : AntiCorruptionId}
    (h : ∀ i < (m.antiCorruption owner).value.invariants.length,
      Everywhere P (.interInvariant owner i))
    (hnodes : AtNodes P (m.antiCorruption owner).value.nodes) :
    (m.checkTranslationInvariants policy owner).Within P := by
  refine within_lift_bind ?_
  split
  · exact within_pure
  · exact within_each fun index _ => within_checkInterInvariant policy index h hnodes

/-! ### Constructors and operations -/

theorem within_checkAssignmentTypes (policy : TernaryPolicy) {callable : Callable} (o : ObjectId)
    (parameters : List Parameter) {assignments : List Assigned}
    (h : ∀ a ∈ assignments, Everywhere P (.assignment callable a.index))
    (hnodes : ∀ a ∈ assignments, AtNodes P a.expression.nodes) :
    (m.checkAssignmentTypes policy callable o parameters assignments).Within P := by
  refine within_lift_bind (within_lift_bind (within_lift_bind (within_each fun a ha => ?_)))
  refine within_lift_bind (Within.bind (Env.within_infer _ _ _ (hnodes a ha)) fun type => ?_)
  split
  · exact within_ite (within_report (h a ha _))
  · exact within_pure

/-- The places of a callable with a body. -/
structure WithinBody (P : Location → Prop) (callable : Callable) (parameters : List Parameter)
    (assignments : List Assigned) : Prop where
  whole : Everywhere P (.callable callable)
  parameter : ∀ i < parameters.length, Everywhere P (.parameter callable i)
  assignment : ∀ a ∈ assignments, Everywhere P (.assignment callable a.index)
  nodes : ∀ a ∈ assignments, AtNodes P a.expression.nodes

theorem within_checkBody (policy : TernaryPolicy) {callable : Callable} (o : ObjectId)
    {parameters : List Parameter} {assignments : List Assigned}
    (h : WithinBody P callable parameters assignments) :
    (m.checkBody policy callable o parameters assignments).Within P := by
  refine within_lift_bind ?_
  refine (within_checkKeyAssigned _ parameters assignments h.whole).bind fun _ => ?_
  refine (within_checkCoverage o h.whole h.assignment).bind fun _ => ?_
  exact within_checkAssignmentTypes policy o parameters h.assignment h.nodes

theorem within_checkConstructor (policy : TernaryPolicy) {o : ObjectId}
    (h : ∀ c ∈ (m.object o).value.constructor,
      WithinBody P (.constructor o) c.parameters c.assigned) :
    (m.checkConstructor policy o).Within P := by
  refine within_lift_bind ?_
  split
  · exact within_pure
  · next c hc =>
    have hbody := h c hc
    refine (within_checkParameters _ hbody.whole hbody.parameter).bind fun _ => ?_
    exact within_checkBody policy o hbody

/-- An assignment command is among the assignments of its operation, under its own position. -/
theorem mem_assigned_of_command {operation : Operation} {i : Nat} {left : LeftValue} {right : Expr}
    (h : operation.commands[i]? = some (.assignment left right)) :
    ⟨i, left.properties.headD "", right⟩ ∈ operation.assigned := by
  unfold Operation.assigned
  refine List.mem_filterMap.mpr ⟨(.assignment left right, i), ?_, rfl⟩
  exact List.mem_zipIdx_iff_getElem?.mpr h

theorem within_checkOperation (policy : TernaryPolicy) {o : ObjectId} {index : Nat}
    (h : ∀ p ∈ (m.object o).value.operations[index]?,
      WithinBody P (.operation o index) p.parameters p.assigned)
    (hcommand : ∀ p ∈ (m.object o).value.operations[index]?,
      Throughout P (.callable (.operation o index)) .commands p.commands.length) :
    (m.checkOperation policy o index).Within P := by
  refine within_lift_bind ?_
  split
  · exact within_pure
  · next operation hoperation =>
    have hbody := h operation hoperation
    refine within_ite ?_
    refine (within_checkParameters _ hbody.whole hbody.parameter).bind fun _ => ?_
    refine (within_checkCommands (hcommand operation hoperation) ?_).bind fun _ => ?_
    · intro i left right hi
      exact hbody.assignment _ (mem_assigned_of_command hi)
    · exact within_checkBody policy o hbody

theorem within_checkOperations (policy : TernaryPolicy) {o : ObjectId}
    (h : ∀ (i : Nat) (p : Operation), (m.object o).value.operations[i]? = some p →
      WithinBody P (.operation o i) p.parameters p.assigned)
    (hcommand : ∀ (i : Nat) (p : Operation), (m.object o).value.operations[i]? = some p →
      Throughout P (.callable (.operation o i)) .commands p.commands.length) :
    (m.checkOperations policy o).Within P := by
  refine within_lift_bind (within_each fun i _ => ?_)
  exact within_checkOperation policy (h i) (hcommand i)

end Model

end DomainModel
