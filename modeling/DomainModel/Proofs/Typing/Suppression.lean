import DomainModel.Proofs.Typing.Reporting
import DomainModel.Proofs.Typing.Visits

/-! # A fault is reported where it is, and nowhere else

If a visited part of an expression has the type `error`, its problem has been reported. The whole
then has the type `error` as well, and adds nothing about that part. An operator still says what is
wrong with its other operand (`Env.complaint`); every other form keeps silent. -/

namespace DomainModel

/-- What is wrong with an operand that the operator does not accept. -/
def BinaryOp.objection : BinaryOp → Ty → Problem
  | .boolean _, type => .notBoolean type
  | _, type => .notNumeric type

/-- The check gives `error` and says nothing. -/
structure Check.Suppressed (c : Check Ty) : Prop where
  value_eq : c.value = .error
  findings_eq : c.findings = []

/-- Behind silence the rest decides. -/
theorem Check.Suppressed.bind {α : Type} {c : Check α} {f : α → Check Ty} (hc : c.findings = [])
    (hf : (f c.value).Suppressed) : (c >>= f).Suppressed := by
  constructor
  · exact hf.value_eq
  · rw [findings_bind, hc, hf.findings_eq]
    rfl

namespace Env

variable (env : Env)

/-- The operator takes operands of the type. A comparison takes any, by themselves. -/
def accepts : BinaryOp → Ty → Bool
  | .boolean _, type => env.compatible type .boolean
  | .comparison _, _ => true
  | .addition _, type | .multiplication _, type => type.isNumeric

/-- What an operator says about one of its operands. -/
def complaint (id : ExprId) (op : BinaryOp) (side : Feature) (type : Ty) : List Finding :=
  if type = .error ∨ env.accepts op type then [] else [⟨op.objection type, .expr id, side, none⟩]

/-- What an expression says about its operands, each taken by itself. -/
def complaints (scope : Scope) (kind : ScopeKind) : Expr → List Finding
  | ⟨id, .binary op left right⟩ =>
    env.complaint id op .left (env.infer scope kind left).value ++
      env.complaint id op .right (env.infer scope kind right).value
  | _ => []

/-! ### Operators -/

theorem complaint_error (id : ExprId) (op : BinaryOp) (side : Feature) :
    env.complaint id op side .error = [] := if_pos (Or.inl rfl)

theorem complaint_boolean (id : ExprId) (op : BooleanOp) (side : Feature) (type : Ty) :
    env.complaint id (.boolean op) side type = (env.expectBoolean id side type).findings := by
  have hiff : (type = .error ∨ env.accepts (.boolean op) type = true) ↔
      env.compatible type .boolean = true := by
    constructor
    · rintro (rfl | h)
      · rfl
      · exact h
    · exact Or.inr
  rw [findings_expectBoolean, complaint]
  simp only [hiff]
  rfl

theorem complaint_comparison (id : ExprId) (op : ComparisonOp) (side : Feature) (type : Ty) :
    env.complaint id (.comparison op) side type = [] := if_pos (Or.inr rfl)

theorem complaint_numeric (id : ExprId) {op : BinaryOp} (side : Feature) (type : Ty)
    (haccepts : env.accepts op type = type.isNumeric)
    (hobjection : op.objection type = .notNumeric type) :
    env.complaint id op side type = (expectNumeric id side type).findings := by
  rw [findings_expectNumeric_eq, complaint, haccepts, hobjection]
  cases type <;> simp [Ty.isError]

theorem findings_binaryResult_of_error (id : ExprId) (op : BinaryOp) {left right : Ty}
    (h : left = .error ∨ right = .error) :
    (env.binaryResult id left right op).findings =
      env.complaint id op .left left ++ env.complaint id op .right right := by
  cases op with
  | boolean op =>
    rw [binaryResult, findings_booleanResult, complaint_boolean, complaint_boolean]
  | comparison op =>
    have hsilent : (env.comparisonResult id left right).findings = [] := by
      unfold comparisonResult
      rcases h with rfl | rfl
      · rfl
      · simp [Ty.isError]
    rw [binaryResult, hsilent, complaint_comparison, complaint_comparison]
    rfl
  | addition op | multiplication op =>
    rw [binaryResult, findings_arithmeticResult, env.complaint_numeric id .left left rfl rfl,
      env.complaint_numeric id .right right rfl rfl]

theorem value_binaryResult_of_error (id : ExprId) (op : BinaryOp) {left right : Ty}
    (h : left = .error ∨ right = .error) : (env.binaryResult id left right op).value = .error := by
  rcases h with rfl | rfl
  · exact env.value_binaryResult_error_left ..
  · exact env.value_binaryResult_error_right ..

/-! ### The other forms -/

theorem suppressed_negationResult (id : ExprId) : (env.negationResult id .error).Suppressed := by
  constructor <;> simp [negationResult, expectBoolean, compatible, Ty.compatible]

theorem suppressed_ternaryResult (id : ExprId) {thenType elseType : Ty}
    (h : thenType = .error ∨ elseType = .error) :
    (env.ternaryResult id thenType elseType).Suppressed := by
  unfold ternaryResult
  rcases h with rfl | rfl
  · exact ⟨rfl, rfl⟩
  · rw [if_pos (by simp [Ty.isError])]
    exact ⟨rfl, rfl⟩

theorem suppressed_ternary {scope : Scope} {kind : ScopeKind} {id : ExprId}
    {condition thenValue elseValue : Expr} {v : Visit}
    (hv : v ∈ env.visits scope kind ⟨id, .ternary condition thenValue elseValue⟩)
    (hfailed : (env.visit v).value = .error) :
    (env.rule scope kind ⟨id, .ternary condition thenValue elseValue⟩).Suppressed := by
  rw [visits] at hv
  rw [rule]
  rcases List.mem_cons.mp hv with rfl | hv
  · rw [visit] at hfailed
    rw [hfailed]
    exact ⟨rfl, rfl⟩
  · -- the branches are visited only if the condition holds
    have hstops : (conditionHolds id (env.infer scope kind condition).value).Stops
        (fun _ => True) false := stops_conditionHolds trivial _
    cases hholds : (conditionHolds id (env.infer scope kind condition).value).value with
    | false =>
      rw [hholds] at hv
      cases hv
    | true =>
      rw [hholds, if_pos rfl] at hv
      have herror : (env.infer scope kind thenValue).value = .error ∨
          (env.infer scope kind elseValue).value = .error := by
        rcases List.mem_cons.mp hv with rfl | hv
        · exact Or.inl hfailed
        · rw [List.mem_singleton.mp hv] at hfailed
          exact Or.inr hfailed
      refine .bind (hstops.findings_eq_nil (by simp [hholds])) ?_
      rw [hholds, if_pos rfl]
      exact env.suppressed_ternaryResult id herror

/-- A chain of methods ends at a lambda body that failed, and says nothing about it. -/
theorem suppressed_methodRule {id : ExprId} {scope : Scope} {index : Nat} {type : Ty}
    {methods : List Method} {v : Visit} (hv : v ∈ env.methodVisits id scope index type methods)
    (hfailed : (env.visit v).value = .error) :
    (env.methodRule id scope index type methods).Suppressed := by
  induction methods generalizing index type with
  | nil => cases hv
  | cons first rest ih =>
    cases first with
    | simple method =>
      have hstops : (simpleResult id index method type).Stops (fun _ => True) .error :=
        stops_simpleResult trivial method type
      rw [methodVisits] at hv
      obtain ⟨hne, hv⟩ := mem_unless_error hv
      rw [methodRule]
      refine .bind (hstops.findings_eq_nil hne) ?_
      rw [if_neg (by simp [Ty.isError_eq_false_of_ne hne])]
      exact ih hv
    | parametric method binder body =>
      have hscope : (lambdaScope id index method binder type scope).Stops (fun _ => True) none :=
        stops_lambdaScope trivial method binder type scope
      rw [methodVisits] at hv
      rw [methodRule]
      cases hinner : (lambdaScope id index method binder type scope).value with
      | none =>
        rw [hinner] at hv
        cases hv
      | some inner =>
        refine .bind (hscope.findings_eq_nil (by simp [hinner])) ?_
        rw [hinner] at hv ⊢
        dsimp only at hv ⊢
        rcases List.mem_cons.mp hv with rfl | hv
        · rw [hfailed]
          exact ⟨rfl, rfl⟩
        · obtain ⟨hne, hv⟩ := mem_unless_error hv
          have hstops : (lambdaResult id index method type
              (env.visit ⟨inner, .methodLocal, body⟩).value).Stops (fun _ => True) .error :=
            stops_lambdaResult trivial ..
          refine .bind (hstops.findings_eq_nil hne) ?_
          rw [if_neg (by simp [Ty.isError_eq_false_of_ne hne])]
          exact ih hv

/-! ### The tree -/

/-- The rule of a form says nothing about a part that failed. -/
theorem rule_of_failed {scope : Scope} {kind : ScopeKind} {e : Expr} {v : Visit}
    (hv : v ∈ env.visits scope kind e) (hfailed : (env.visit v).value = .error) :
    (env.rule scope kind e).value = .error ∧
      (env.rule scope kind e).findings = env.complaints scope kind e := by
  obtain ⟨id, form⟩ := e
  cases form with
  | binary op left right =>
    have herror : (env.infer scope kind left).value = .error ∨
        (env.infer scope kind right).value = .error := by
      rcases List.mem_cons.mp hv with rfl | hv
      · exact Or.inl hfailed
      · rw [List.mem_singleton.mp hv] at hfailed
        exact Or.inr hfailed
    exact ⟨env.value_binaryResult_of_error id op herror,
      env.findings_binaryResult_of_error id op herror⟩
  | lone op operand | parenthesized operand =>
    rw [List.mem_singleton.mp hv] at hfailed
    exact ⟨hfailed, rfl⟩
  | negation operand =>
    rw [List.mem_singleton.mp hv, visit] at hfailed
    have hrule := env.suppressed_negationResult id
    rw [rule, hfailed]
    exact ⟨hrule.value_eq, hrule.findings_eq⟩
  | signed op operand =>
    rw [List.mem_singleton.mp hv, visit] at hfailed
    rw [rule, hfailed]
    exact ⟨rfl, rfl⟩
  | ternary condition thenValue elseValue =>
    have hrule := env.suppressed_ternary hv hfailed
    exact ⟨hrule.value_eq, hrule.findings_eq⟩
  | path head properties methods =>
    rw [visits] at hv
    obtain ⟨hne, hv⟩ := mem_unless_error hv
    have hstops := env.stops_base id scope kind head properties methods
    have hrule : (env.rule scope kind ⟨id, .path head properties methods⟩).Suppressed := by
      rw [rule]
      refine .bind (hstops.findings_eq_nil hne) ?_
      rw [if_neg (by simp [Ty.isError_eq_false_of_ne hne])]
      exact env.suppressed_methodRule hv hfailed
    exact ⟨hrule.value_eq, hrule.findings_eq⟩
  | _ => cases hv

/-- **An expression with a failed part fails, and adds nothing about that part.** What it reports is
what its visited parts report, and after them what an operator has against operands that did not
fail. -/
theorem infer_of_failed_part (scope : Scope) (kind : ScopeKind) (e : Expr) (v : Visit)
    (visited : v ∈ env.visits scope kind e) (failed : (env.visit v).value = .error) :
    (env.infer scope kind e).value = .error ∧
      (env.infer scope kind e).findings =
        env.found (env.visits scope kind e) ++ env.complaints scope kind e := by
  obtain ⟨hvalue, hfindings⟩ := env.rule_of_failed visited failed
  rw [value_infer, findings_infer, hfindings]
  exact ⟨hvalue, rfl⟩

/-- A misspelt property fails below a lambda. The conjunction says nothing about that, but it does
say that its other side is a number. -/
theorem infer_of_failed_part_linesBelow :
    let env := (forAggregate .orders (some ⟨0⟩) .boolean).value
    let scope := Scope.root [("limit", .optional .long)]
    let e := Expr.and (Model.linesBelow "prize") (Expr.number "1")
    let left : Visit := ⟨scope, .constructorAssignment, Model.linesBelow "prize"⟩
    left ∈ env.visits scope .constructorAssignment e ∧ (env.visit left).value = .error ∧
      (env.infer scope .constructorAssignment e).value = .error ∧
      (env.infer scope .constructorAssignment e).findings =
        (env.visit left).findings ++ [⟨.notBoolean .integer, .expr ⟨0⟩, .right, none⟩] := by
  intro env scope e left
  have visited : left ∈ env.visits scope .constructorAssignment e := List.mem_cons_self
  have failed : (env.visit left).value = .error := by decide
  obtain ⟨hvalue, hfindings⟩ :=
    env.infer_of_failed_part scope .constructorAssignment e left visited failed
  refine ⟨visited, failed, hvalue, hfindings.trans ?_⟩
  have hcomplaints : env.complaints scope .constructorAssignment e =
      [⟨.notBoolean .integer, .expr ⟨0⟩, .right, none⟩] := by decide
  rw [hcomplaints]
  rfl

end Env

end DomainModel
