import DomainModel.Proofs.Typing.Reporting
import DomainModel.Proofs.Typing.Visits

/-! # Accepted expressions are well scoped

An expression is accepted if it has a type other than `error`. Then every part of it has been
visited, each in the scope and at the place that its position gives it (`part_accepted`): the parts
of an expression share its scope, and the body of a lambda has one more variable and is
`methodLocal`. So the rules on heads, variables and `final(…)`, each enforced where it applies, hold
in the whole tree (`inferType_wellScoped`). -/

namespace DomainModel

/-! ### Occurrences -/

/-- The expression has a direct part, which is the body of a lambda if a variable is given. -/
inductive Expr.Part : Expr → Option String → Expr → Prop where
  | left {id : ExprId} {op : BinaryOp} {left right : Expr} :
    Part ⟨id, .binary op left right⟩ none left
  | right {id : ExprId} {op : BinaryOp} {left right : Expr} :
    Part ⟨id, .binary op left right⟩ none right
  | lone {id : ExprId} {op : BinaryOp} {operand : Expr} : Part ⟨id, .lone op operand⟩ none operand
  | negation {id : ExprId} {operand : Expr} : Part ⟨id, .negation operand⟩ none operand
  | signed {id : ExprId} {op : AdditiveOp} {operand : Expr} :
    Part ⟨id, .signed op operand⟩ none operand
  | condition {id : ExprId} {condition thenValue elseValue : Expr} :
    Part ⟨id, .ternary condition thenValue elseValue⟩ none condition
  | thenValue {id : ExprId} {condition thenValue elseValue : Expr} :
    Part ⟨id, .ternary condition thenValue elseValue⟩ none thenValue
  | elseValue {id : ExprId} {condition thenValue elseValue : Expr} :
    Part ⟨id, .ternary condition thenValue elseValue⟩ none elseValue
  | parenthesized {id : ExprId} {inner : Expr} : Part ⟨id, .parenthesized inner⟩ none inner
  | body {id : ExprId} {head : PathHead} {properties : List String} {methods : List Method}
    {method : ParametricMethod} {binder : String} {body : Expr}
    (h : .parametric method binder body ∈ methods) :
    Part ⟨id, .path head properties methods⟩ (some binder) body

/-- `Occurs e binders s`: the expression `s` occurs in `e`, below lambdas that bind the given
variables, innermost first. -/
inductive Expr.Occurs : Expr → List String → Expr → Prop where
  | here (e : Expr) : Occurs e [] e
  | inside {e c s : Expr} {binder : Option String} {binders : List String}
    (hpart : e.Part binder c) (h : Occurs c binders s) : Occurs e (binders ++ binder.toList) s

/-! ### The rules of scoping -/

/-- **The rules of scoping** for an expression of the given form that stands below lambdas with the
given variables, the outermost expression being at a place of the given kind. -/
structure WellScoped (scope : Scope) (kind : ScopeKind) (binders : List String) (form : Form) :
    Prop where
  root : ∀ properties methods, form = .path .root properties methods →
    binders = [] ∧ (kind = .intraInvariant ∨ kind = .constructorAssignment)
  final : ∀ chains, form = .final chains → binders = [] ∧ kind = .intraInvariant
  query : ∀ operation params properties methods,
    form = .path (.query operation params) properties methods →
      (binders = [] → kind = .interInvariant ∨ kind = .methodLocal) ∧
        ∀ param ∈ params, scope.isDeclared param = true ∨ param ∈ binders
  var : ∀ name properties methods, form = .path (.variable name) properties methods →
    (kind = .intraInvariant → binders ≠ []) ∧ (scope.isDeclared name = true ∨ name ∈ binders)
  lambda : ∀ head properties methods, form = .path head properties methods →
    ∀ method binder body, .parametric method binder body ∈ methods →
      scope.isDeclared binder = false ∧ binder ∉ binders

/-- The scope and the place of a part of an expression. -/
inductive Scope.Enters (scope : Scope) (kind : ScopeKind) :
    Option String → Scope → ScopeKind → Prop where
  | same : Enters scope kind none scope kind
  | lambda (binder : String) (type : Ty) :
    Enters scope kind (some binder) (.child scope binder type) .methodLocal

theorem Scope.isDeclared_child {scope : Scope} {bound name : String} {type : Ty} :
    (child scope bound type).isDeclared name = true ↔
      name = bound ∨ scope.isDeclared name = true := by
  unfold isDeclared
  rw [lookup]
  split
  · next h => simp [beq_iff_eq.mp h]
  · next h =>
    rw [beq_iff_eq] at h
    simp [Ne.symm h]

/-- What is well scoped in a part is well scoped in the whole. -/
theorem WellScoped.of_enters {scope inner : Scope} {kind innerKind : ScopeKind}
    {binder : Option String} (henters : scope.Enters kind binder inner innerKind)
    {binders : List String} {form : Form} (h : WellScoped inner innerKind binders form) :
    WellScoped scope kind (binders ++ binder.toList) form := by
  cases henters with
  | same => simpa using h
  | lambda binder type =>
    -- inside a lambda nothing is at the place of the outermost expression any more
    have hdeclared : ∀ name, (Scope.child scope binder type).isDeclared name = true ∨
        name ∈ binders → scope.isDeclared name = true ∨ name ∈ binders ++ [binder] := by
      intro name hname
      rw [Scope.isDeclared_child] at hname
      rw [List.mem_append, List.mem_singleton]
      rcases hname with (rfl | hname) | hname
      · exact Or.inr (Or.inr rfl)
      · exact Or.inl hname
      · exact Or.inr (Or.inl hname)
    constructor
    · intro properties methods hform
      rcases (h.root properties methods hform).2 with h | h <;> cases h
    · intro chains hform
      cases (h.final chains hform).2
    · intro operation params properties methods hform
      refine ⟨by simp, fun param hparam => ?_⟩
      exact hdeclared param ((h.query operation params properties methods hform).2 param hparam)
    · intro name properties methods hform
      exact ⟨by simp, hdeclared name (h.var name properties methods hform).2⟩
    · intro head properties methods hform method name body hmem
      obtain ⟨hfree, hnot⟩ := h.lambda head properties methods hform method name body hmem
      rw [← Bool.not_eq_true, Scope.isDeclared_child, not_or, Bool.not_eq_true] at hfree
      refine ⟨hfree.2, ?_⟩
      simpa using ⟨hnot, hfree.1⟩

namespace Env

variable {env : Env} {scope : Scope} {kind : ScopeKind}

/-! ### Methods -/

/-- A chain of methods that has a type is the chain from each of its methods on. -/
theorem lambda_accepted {id : ExprId} {index : Nat} {type : Ty} {methods : List Method}
    (h : (env.applyMethods id scope index type methods).value ≠ .error) {method : ParametricMethod}
    {binder : String} {body : Expr} (hmem : .parametric method binder body ∈ methods) :
    scope.lookup binder = none ∧
      ∃ t, (env.infer (.child scope binder t) .methodLocal body).value ≠ .error := by
  induction methods generalizing index type with
  | nil => cases hmem
  | cons first rest ih =>
    cases first with
    | simple m =>
      rw [applyMethods, Check.value_bind] at h
      split at h
      · exact absurd rfl h
      · refine ih h ?_
        simpa using hmem
    | parametric m name e =>
      rw [applyMethods, Check.value_bind] at h
      split at h
      · exact absurd rfl h
      · next inner hinner =>
        simp only [Check.value_bind] at h
        rcases List.mem_cons.mp hmem with heq | hmem
        · cases heq
          obtain ⟨hfree, rfl⟩ := lambdaScope_eq_some hinner
          refine ⟨hfree, type.unwrapCollection, ?_⟩
          intro hbody
          rw [hbody] at h
          exact h rfl
        · split at h
          · exact absurd rfl h
          · exact ih h hmem

/-! ### Heads -/

theorem base_accepted {id : ExprId} {head : PathHead} {properties : List String}
    {methods : List Method}
    (h : (env.infer scope kind ⟨id, .path head properties methods⟩).value ≠ .error) :
    (env.head id scope kind head).value ≠ none ∧
      ∃ type, (env.applyMethods id scope 0 type methods).value ≠ .error := by
  rw [infer, Check.value_bind] at h
  constructor
  · intro hhead
    unfold base at h
    simp only [Check.value_bind, hhead] at h
    exact h rfl
  · split at h
    · exact absurd rfl h
    · exact ⟨_, h⟩

theorem root_accepted {id : ExprId} (h : (env.head id scope kind .root).value ≠ none) :
    kind = .intraInvariant ∨ kind = .constructorAssignment := by
  cases kind with
  | intraInvariant => exact Or.inl rfl
  | constructorAssignment => exact Or.inr rfl
  | interInvariant | methodLocal => exact absurd rfl h

theorem query_accepted {id : ExprId} {operation : String} {params : List String}
    (h : (env.head id scope kind (.query operation params)).value ≠ none) :
    (kind = .interInvariant ∨ kind = .methodLocal) ∧
      ∀ param ∈ params, scope.isDeclared param = true := by
  rw [Env.head] at h
  split at h
  · exact absurd rfl h
  · next hkind =>
    refine ⟨?_, ?_⟩
    · cases kind with
      | interInvariant => exact Or.inl rfl
      | methodLocal => exact Or.inr rfl
      | intraInvariant | constructorAssignment => exact absurd rfl hkind
    · unfold query at h
      simp only [Check.value_bind] at h
      split at h
      · exact absurd rfl h
      · split at h
        · exact absurd rfl h
        · split at h
          · exact absurd rfl h
          · next hparams =>
            refine forall_mem_zipIdx.mp fun p hp => ?_
            simpa using List.find?_eq_none.mp hparams p hp

theorem variable_accepted {id : ExprId} {name : String}
    (h : (env.head id scope kind (.variable name)).value ≠ none) :
    kind ≠ .intraInvariant ∧ scope.isDeclared name = true := by
  rw [Env.head] at h
  split at h
  · exact absurd rfl h
  · next hkind =>
    refine ⟨hkind, ?_⟩
    unfold Scope.isDeclared
    cases hlookup : scope.lookup name with
    | none =>
      rw [hlookup] at h
      exact absurd rfl h
    | some type => rfl

/-! ### The tree -/

/-- An accepted expression obeys the rules where it stands. -/
theorem wellScoped_of_accepted {s : Expr} (h : (env.infer scope kind s).value ≠ .error) :
    WellScoped scope kind [] s.form := by
  obtain ⟨id, form⟩ := s
  constructor
  · rintro properties methods ⟨⟩
    exact ⟨rfl, root_accepted (base_accepted h).1⟩
  · rintro chains ⟨⟩
    refine ⟨rfl, ?_⟩
    rw [infer, finalResult] at h
    split at h
    · exact absurd rfl h
    · next hkind => exact Classical.not_not.mp hkind
  · rintro operation params properties methods ⟨⟩
    obtain ⟨hkind, hparams⟩ := query_accepted (base_accepted h).1
    exact ⟨fun _ => hkind, fun param hparam => Or.inl (hparams param hparam)⟩
  · rintro name properties methods ⟨⟩
    obtain ⟨hkind, hname⟩ := variable_accepted (base_accepted h).1
    exact ⟨fun h => absurd h hkind, Or.inl hname⟩
  · rintro head properties methods ⟨⟩ method binder body hmem
    obtain ⟨type, hmethods⟩ := (base_accepted h).2
    refine ⟨?_, by simp⟩
    unfold Scope.isDeclared
    rw [(lambda_accepted hmethods hmem).1]
    rfl

/-- **The parts of an accepted expression are accepted,** each in the scope and at the place that
its position gives it. -/
theorem part_accepted {e c : Expr} (h : (env.infer scope kind e).value ≠ .error)
    {binder : Option String} (hpart : e.Part binder c) :
    ∃ inner innerKind, scope.Enters kind binder inner innerKind ∧
      (env.infer inner innerKind c).value ≠ .error := by
  cases hpart with
  | body hmem =>
    obtain ⟨type, hmethods⟩ := (base_accepted h).2
    obtain ⟨-, t, hbody⟩ := lambda_accepted hmethods hmem
    exact ⟨_, _, .lambda _ t, hbody⟩
  | lone =>
    rw [infer] at h
    exact ⟨_, _, .same, h⟩
  | parenthesized =>
    rw [infer] at h
    exact ⟨_, _, .same, h⟩
  | left =>
    refine ⟨_, _, .same, fun hc => h ?_⟩
    rw [infer, Check.value_bind, hc]
    exact env.value_binaryResult_error_left ..
  | right =>
    refine ⟨_, _, .same, fun hc => h ?_⟩
    rw [infer, Check.value_bind, Check.value_bind, hc]
    exact env.value_binaryResult_error_right ..
  | negation =>
    refine ⟨_, _, .same, fun hc => h ?_⟩
    rw [infer, Check.value_bind, hc]
    exact env.value_negationResult_error _
  | signed =>
    refine ⟨_, _, .same, fun hc => h ?_⟩
    rw [infer, Check.value_bind, hc]
    rfl
  | condition =>
    refine ⟨_, _, .same, fun hc => h ?_⟩
    rw [infer, Check.value_bind, hc]
    rfl
  | thenValue =>
    refine ⟨_, _, .same, fun hc => h ?_⟩
    rw [infer, Check.value_bind, Check.value_bind]
    split
    · rw [Check.value_bind, Check.value_bind, hc]
      exact env.value_ternaryResult_error_then ..
    · rfl
  | elseValue =>
    refine ⟨_, _, .same, fun hc => h ?_⟩
    rw [infer, Check.value_bind, Check.value_bind]
    split
    · rw [Check.value_bind, Check.value_bind, hc]
      exact env.value_ternaryResult_error_else ..
    · rfl

/-- All of an accepted expression is well scoped. -/
theorem wellScoped_of_occurs {e s : Expr} (h : (env.infer scope kind e).value ≠ .error)
    {binders : List String} (hs : e.Occurs binders s) : WellScoped scope kind binders s.form := by
  induction hs generalizing scope kind with
  | here e => exact wellScoped_of_accepted h
  | inside hpart _ ih =>
    obtain ⟨inner, innerKind, henters, hc⟩ := part_accepted h hpart
    exact (ih hc).of_enters henters

end Env

/-- **An accepted expression is well scoped,** whatever stands in it and however deep. -/
theorem Model.inferType_wellScoped (m : Model) (aggregate : Option AggregateId)
    (policy : TernaryPolicy) (scope : Scope) (kind : ScopeKind) (e : Expr)
    (accepted : (m.inferType aggregate policy scope kind e).value ≠ .error)
    (binders : List String) (s : Expr) (occurs : e.Occurs binders s) :
    WellScoped scope kind binders s.form :=
  Env.wellScoped_of_occurs accepted occurs

/-- The limit is declared outside the lambda that compares it with a price. -/
theorem Model.inferType_wellScoped_limit :
    let limit := (Expr.var "limit" []).callSimple .get
    (linesBelow "price").Occurs ["l"] limit ∧
      WellScoped (.root [("limit", .optional .long)]) .constructorAssignment ["l"] limit.form := by
  intro limit
  have inner : (Expr.compare (Expr.var "l" ["price"]) .lt limit).Occurs [] limit :=
    .inside .right (.here limit)
  have occurs : (linesBelow "price").Occurs ["l"] limit :=
    .inside (.body (List.mem_singleton_self _)) inner
  exact ⟨occurs, inferType_wellScoped orders (some ⟨0⟩) .boolean _ .constructorAssignment _
    (by decide) ["l"] limit occurs⟩

end DomainModel
