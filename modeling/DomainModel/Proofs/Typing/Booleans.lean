import DomainModel.Expr.Build
import DomainModel.Proofs.Typing.Inherited
import DomainModel.Proofs.Typing.Suppression
import DomainModel.Rules.Invariants

/-! # Booleans where booleans are asked for

Whether a type may stand where a boolean is expected is asked in two ways. Ternaries and predicates
want a boolean (`Ty.isBoolean`); boolean operators, negations and invariants take whatever goes with
`Boolean`, so also `null` and an entity that is named like the type (`Ty.GoesAsBoolean`).

`env.Throughout P v` says that the evaluated expression `v` and all its parts are evaluated and have
the property `P`. An expression that has a type obeys what its form asks of its operands
(`Env.demands_of_accepted`), and so do its parts, all of which are evaluated
(`Env.throughout_of_accepted`). An invariant without findings has a type
(`Model.checkIntraInvariant_booleans`). -/

namespace DomainModel

/-! ### Types -/

namespace Ty

/-- The type goes with `Boolean` and is no error: it is a boolean, an entity with that name, or
`null`, which may stand for a boolean. -/
def GoesAsBoolean : Ty → Prop
  | primitive name | entity name => sameName name "Boolean" = true
  | null => True
  | collection _ | optional _ | final | error => False

/-- The type is neither `null` nor an entity named like the type of booleans, and wraps none. -/
def NoStandIn : Ty → Prop
  | null => False
  | entity name => sameName name "Boolean" = false
  | collection t | optional t => t.NoStandIn
  | primitive _ | final | error => True

variable {t : Ty} {entityNames : List String}

theorem compatible_boolean :
    compatible entityNames t .boolean = true ↔ t = .error ∨ t.GoesAsBoolean := by
  have hname : (primitive "Boolean").isNumeric = false := by decide
  cases t with
  | primitive name | entity name =>
    simp [compatible, boolean, sameOrNumeric, name?, GoesAsBoolean, hname]
  | null => simp [compatible, boolean, acceptsNull, GoesAsBoolean, nullableNames]
  | collection t | optional t | final =>
    simp [compatible, boolean, sameOrNumeric, name?, GoesAsBoolean]
  | error => simp [compatible]

theorem compatible_final :
    compatible entityNames t .final = true ↔ t = .error ∨ t = .final := by
  cases t <;> simp [compatible, acceptsNull, sameOrNumeric, name?]

theorem isBoolean_of_goesAsBoolean (h : t.GoesAsBoolean) (hstandIn : t.NoStandIn) :
    t.isBoolean = true := by
  cases t with
  | primitive name => exact h
  | entity name =>
    have hname : sameName name "Boolean" = false := hstandIn
    exact absurd h (by simp [GoesAsBoolean, hname])
  | null => exact hstandIn.elim
  | _ => exact h.elim

theorem inherited_noStandIn : Ty.Inherited NoStandIn where
  collection _ := Iff.rfl
  optional _ := Iff.rfl
  builtin _ _ := trivial
  final := trivial
  error := trivial

end Ty

/-- No object has the name of the type of booleans. -/
def Model.NoneNamedBoolean (m : Model) : Prop :=
  ∀ object ∈ m.objects, sameName object.name "Boolean" = false

instance (m : Model) : Decidable m.NoneNamedBoolean :=
  inferInstanceAs (Decidable (∀ object ∈ m.objects, sameName object.name "Boolean" = false))

theorem Model.supplies_noStandIn {m : Model} (hm : m.NoneNamedBoolean) :
    m.Supplies Ty.NoStandIn where
  object := Lookup.forall_node (by decide : sameName "" "Boolean" = false) hm
  attributeOf _ := trivial

/-! ### What is asked -/

/-- The methods of a chain that take a lambda, one for each of its bodies. -/
def Expr.lambdas : List Method → List ParametricMethod
  | [] => []
  | .simple _ :: methods => lambdas methods
  | .parametric method _ _ :: methods => method :: lambdas methods

namespace Env

variable {env : Env} {scope : Scope} {kind : ScopeKind}

/-- **What is asked where a boolean is expected.** The operands of `and`, `or` and a negation have
types that fit; conditions and the bodies of predicates are booleans. -/
structure Demands (env : Env) (Fits : Ty → Prop) (v : Visit) : Prop where
  operator : ∀ id op left right, v.part = ⟨id, .binary (.boolean op) left right⟩ →
    Fits (env.infer v.scope v.kind left).value ∧ Fits (env.infer v.scope v.kind right).value ∧
      (env.visit v).value = .boolean
  negation : ∀ id operand, v.part = ⟨id, .negation operand⟩ →
    Fits (env.infer v.scope v.kind operand).value ∧
      (env.visit v).value = (env.infer v.scope v.kind operand).value
  condition : ∀ id condition thenValue elseValue,
    v.part = ⟨id, .ternary condition thenValue elseValue⟩ →
      (env.infer v.scope v.kind condition).value.isBoolean = true
  predicate : ∀ id head properties methods, v.part = ⟨id, .path head properties methods⟩ →
    List.Forall₂ (fun method w => method.takesPredicate = true →
      (env.visit w).value.isBoolean = true)
      (Expr.lambdas methods) (env.visits v.scope v.kind v.part)

/-- The property holds of an evaluated expression and of all its parts, and all are evaluated. -/
inductive Throughout (env : Env) (P : Visit → Prop) : Visit → Prop where
  | intro {v : Visit} (here : P v)
    (evaluated : (env.visits v.scope v.kind v.part).map Visit.part = v.part.children)
    (parts : ∀ w ∈ env.visits v.scope v.kind v.part, Throughout env P w) : Throughout env P v

/-! ### Operators -/

theorem value_expectBoolean (id : ExprId) (side : Feature) (type : Ty) :
    (env.expectBoolean id side type).value = env.compatible type .boolean := by
  unfold expectBoolean
  cases env.compatible type .boolean <;> rfl

theorem booleanResult_accepted {id : ExprId} {left right : Ty}
    (h : (env.booleanResult id left right).value ≠ .error) :
    left.GoesAsBoolean ∧ right.GoesAsBoolean ∧
      (env.booleanResult id left right).value = .boolean := by
  simp only [booleanResult, Check.value_bind, Check.value_pure, value_expectBoolean] at h ⊢
  split at h
  · next hok =>
    rw [if_pos hok]
    simp only [Bool.and_eq_true, Bool.not_eq_true'] at hok
    obtain ⟨⟨⟨hl, hr⟩, hleft⟩, hright⟩ := hok
    refine ⟨(Ty.compatible_boolean.mp hl).resolve_left ?_,
      (Ty.compatible_boolean.mp hr).resolve_left ?_, rfl⟩
    · rintro rfl
      cases hleft
    · rintro rfl
      cases hright
  · exact absurd rfl h

theorem negationResult_accepted {id : ExprId} {operand : Ty}
    (h : (env.negationResult id operand).value ≠ .error) :
    operand.GoesAsBoolean ∧ (env.negationResult id operand).value = operand := by
  simp only [negationResult, Check.value_bind, Check.value_pure, value_expectBoolean] at h ⊢
  split at h
  · next hok =>
    rw [if_pos hok]
    exact ⟨(Ty.compatible_boolean.mp hok).resolve_left h, rfl⟩
  · exact absurd rfl h

/-- A condition holds for a ternary exactly if it is a boolean. -/
theorem value_conditionHolds (id : ExprId) (condition : Ty) :
    (conditionHolds id condition).value = condition.isBoolean := by
  unfold conditionHolds
  cases condition with
  | primitive name =>
    cases hname : (Ty.primitive name).isBoolean <;> simp [Ty.isError]
  | _ => rfl

/-! ### Methods -/

/-- The lambda of a predicate that has a result is a boolean. -/
theorem lambdaResult_accepted {id : ExprId} {index : Nat} {method : ParametricMethod}
    {type body : Ty} (h : (lambdaResult id index method type body).value ≠ .error)
    (hpredicate : method.takesPredicate = true) : body.isBoolean = true := by
  unfold lambdaResult at h
  split at h
  · exact absurd rfl h
  · split at h
    · exact absurd rfl h
    · next hok => simpa [hpredicate] using hok

/-- What comes behind a step has a type only if the step has one. -/
theorem accepted_unless_error {type : Ty} {c : Check Ty}
    (h : (if type.isError then pure .error else c : Check Ty).value ≠ .error) :
    type.isError = false ∧ c.value ≠ .error := by
  cases hte : type.isError with
  | true =>
    rw [hte] at h
    exact absurd rfl h
  | false =>
    rw [hte] at h
    exact ⟨rfl, h⟩

/-- A chain of methods that has a type enters all its lambdas, and its predicates are booleans. -/
theorem methodRule_accepted {id : ExprId} {index : Nat} {type : Ty} {methods : List Method}
    (h : (env.methodRule id scope index type methods).value ≠ .error) :
    (env.methodVisits id scope index type methods).map Visit.part = Expr.bodies methods ∧
      List.Forall₂ (fun method w => method.takesPredicate = true →
        (env.visit w).value.isBoolean = true)
        (Expr.lambdas methods) (env.methodVisits id scope index type methods) := by
  induction methods generalizing index type with
  | nil => exact ⟨rfl, .nil⟩
  | cons first rest ih =>
    cases first with
    | simple method =>
      rw [methodRule, Check.value_bind] at h
      obtain ⟨hnext, hrest⟩ := accepted_unless_error h
      rw [methodVisits, if_neg (by simp [hnext])]
      exact ih hrest
    | parametric method binder body =>
      rw [methodRule, Check.value_bind] at h
      rw [methodVisits]
      cases hinner : (lambdaScope id index method binder type scope).value with
      | none =>
        rw [hinner] at h
        exact absurd rfl h
      | some inner =>
        rw [hinner] at h
        simp only [Check.value_bind] at h ⊢
        obtain ⟨hnext, hrest⟩ := accepted_unless_error h
        rw [if_neg (by simp [hnext])]
        obtain ⟨hparts, hpredicates⟩ := ih hrest
        have hresult : (lambdaResult id index method type
            (env.visit ⟨inner, .methodLocal, body⟩).value).value ≠ .error := by
          intro herror
          rw [herror] at hnext
          cases hnext
        exact ⟨congrArg (body :: ·) hparts, .cons (lambdaResult_accepted hresult) hpredicates⟩

/-! ### The tree -/

theorem path_accepted {id : ExprId} {head : PathHead} {properties : List String}
    {methods : List Method}
    (h : (env.infer scope kind ⟨id, .path head properties methods⟩).value ≠ .error) :
    ∃ type, env.visits scope kind ⟨id, .path head properties methods⟩ =
        env.methodVisits id scope 0 type methods ∧
      (env.methodRule id scope 0 type methods).value ≠ .error := by
  rw [value_infer, rule, Check.value_bind] at h
  obtain ⟨hbase, hrule⟩ := accepted_unless_error h
  refine ⟨_, ?_, hrule⟩
  rw [visits, if_neg (by simp [hbase])]

/-- Of an accepted ternary the condition is a boolean. -/
theorem ternary_accepted {id : ExprId} {condition thenValue elseValue : Expr}
    (h : (env.infer scope kind ⟨id, .ternary condition thenValue elseValue⟩).value ≠ .error) :
    (env.infer scope kind condition).value.isBoolean = true := by
  rw [value_infer, rule, Check.value_bind, value_conditionHolds] at h
  by_contra hcondition
  rw [if_neg hcondition] at h
  exact h rfl

/-- **All parts of an accepted expression are evaluated.** -/
theorem visits_of_accepted {e : Expr} (h : (env.infer scope kind e).value ≠ .error) :
    (env.visits scope kind e).map Visit.part = e.children := by
  obtain ⟨id, form⟩ := e
  cases form with
  | ternary condition thenValue elseValue =>
    rw [visits, value_conditionHolds, if_pos (ternary_accepted h)]
    rfl
  | path head properties methods =>
    obtain ⟨type, hvisits, hrule⟩ := path_accepted h
    rw [hvisits]
    exact (methodRule_accepted hrule).1
  | _ => rfl

/-- The parts of an accepted expression are accepted. -/
theorem visit_accepted {e : Expr} (h : (env.infer scope kind e).value ≠ .error) {v : Visit}
    (hv : v ∈ env.visits scope kind e) : (env.visit v).value ≠ .error := by
  intro hfailed
  rw [value_infer] at h
  exact h (env.rule_of_failed hv hfailed).1

/-- **An accepted expression obeys what its form asks.** -/
theorem demands_of_accepted {v : Visit} (h : (env.visit v).value ≠ .error) :
    env.Demands Ty.GoesAsBoolean v := by
  obtain ⟨scope, kind, e⟩ := v
  rw [visit] at h
  constructor
  · rintro id op left right rfl
    have hvalue := env.value_infer scope kind ⟨id, .binary (.boolean op) left right⟩
    rw [hvalue] at h
    obtain ⟨hl, hr, hresult⟩ := booleanResult_accepted h
    exact ⟨hl, hr, hvalue.trans hresult⟩
  · rintro id operand rfl
    have hvalue := env.value_infer scope kind ⟨id, .negation operand⟩
    rw [hvalue] at h
    obtain ⟨hoperand, hresult⟩ := negationResult_accepted h
    exact ⟨hoperand, hvalue.trans hresult⟩
  · rintro id condition thenValue elseValue rfl
    exact ternary_accepted h
  · rintro id head properties methods rfl
    obtain ⟨type, hvisits, hrule⟩ := path_accepted h
    rw [hvisits]
    exact (methodRule_accepted hrule).2

theorem throughout_of_accepted {e : Expr} (h : (env.infer scope kind e).value ≠ .error) :
    env.Throughout (env.Demands Ty.GoesAsBoolean) ⟨scope, kind, e⟩ := by
  induction e using Expr.induction_on_children generalizing scope kind with
  | h e ih =>
    refine .intro (demands_of_accepted h) (visits_of_accepted h) fun w hw => ?_
    exact ih w.part (env.mem_children_of_visits hw) (visit_accepted h hw)

/-! ### Without stand-ins -/

/-- Where `null` is only compared and no object is named like the type, only booleans go with it. -/
theorem Demands.strict {v : Visit} (h : env.Demands Ty.GoesAsBoolean v)
    (hm : env.model.NoneNamedBoolean) (hs : v.scope.Supplies Ty.NoStandIn)
    (hcompared : v.part.NullsCompared) : env.Demands (·.isBoolean = true) v := by
  have hpart : v.part.isComparison = false → ∀ c ∈ v.part.children,
      (env.infer v.scope v.kind c).value.GoesAsBoolean →
        (env.infer v.scope v.kind c).value.isBoolean = true := by
    intro he c hc hgoes
    refine Ty.isBoolean_of_goesAsBoolean hgoes ?_
    exact inherited_infer Ty.inherited_noStandIn (Model.supplies_noStandIn hm) hs
      (hcompared.isNull_child he hc) (hcompared.child hc)
  refine ⟨?_, ?_, h.condition, h.predicate⟩
  · intro id op left right hform
    obtain ⟨hl, hr, hvalue⟩ := h.operator id op left right hform
    rw [hform] at hpart
    exact ⟨hpart rfl left (by simp [Expr.children]) hl,
      hpart rfl right (by simp [Expr.children]) hr, hvalue⟩
  · intro id operand hform
    obtain ⟨hoperand, hvalue⟩ := h.negation id operand hform
    rw [hform] at hpart
    exact ⟨hpart rfl operand (by simp [Expr.children]) hoperand, hvalue⟩

theorem Throughout.strict {v : Visit} (h : env.Throughout (env.Demands Ty.GoesAsBoolean) v)
    (hm : env.model.NoneNamedBoolean) (hs : v.scope.Supplies Ty.NoStandIn)
    (hcompared : v.part.NullsCompared) : env.Throughout (env.Demands (·.isBoolean = true)) v := by
  induction h with
  | intro here evaluated parts ih =>
    refine .intro (here.strict hm hs hcompared) evaluated fun w hw => ih w hw ?_ ?_
    · exact supplies_of_visits Ty.inherited_noStandIn (Model.supplies_noStandIn hm) hs hcompared hw
    · exact hcompared.child (env.mem_children_of_visits hw)

end Env

/-! ### Invariants -/

namespace Model

/-- An invariant without findings has a type, and this is `final` or goes with `Boolean`. -/
theorem type_of_checkIntraInvariant {m : Model} {policy : TernaryPolicy} {a : AggregateId}
    {index : Nat} {invariant : Invariant}
    (declared : (m.aggregate a).value.invariants[index]? = some invariant)
    (clean : (m.checkIntraInvariant policy a index).findings = []) :
    let type := ((Env.forAggregate m (some a) policy).value.infer .empty .intraInvariant
      invariant.expression).value
    type ≠ .error ∧ (type = .final ∨ type.GoesAsBoolean) := by
  intro type
  simp only [checkIntraInvariant, Check.findings_bind, Check.findings_lift, Check.value_lift,
    declared, List.nil_append, List.append_eq_nil_iff] at clean
  obtain ⟨hinfer, hreport⟩ := clean
  have hempty : Scope.empty.ErrorFree := by
    intro name t h
    cases h
  have hne : type ≠ .error := by
    intro herror
    have htyped := (Env.forAggregate m (some a) policy).value.typed_infer hempty .intraInvariant
      invariant.expression
    rcases htyped with ⟨-, hgood⟩ | ⟨hreported, -⟩
    · change type.hasError = false at hgood
      rw [herror] at hgood
      cases hgood
    · exact hreported hinfer
  refine ⟨hne, ?_⟩
  split at hreport
  · cases hreport
  · next hok =>
    simp only [Bool.and_eq_true, not_and_or, Bool.not_eq_true', Bool.not_eq_false] at hok
    rcases hok with hok | hok
    · exact Or.inr ((Ty.compatible_boolean.mp hok).resolve_left hne)
    · exact Or.inl ((Ty.compatible_final.mp hok).resolve_left hne)

/-- **An accepted invariant goes with booleans wherever a boolean is asked for.** Its own type is
`final` or goes with `Boolean`. All of it is evaluated; the operands of every `and`, `or` and
negation go with `Boolean`, an `and` or `or` is a boolean, and a negation has the type of its
operand; every condition and the body of every predicate is a boolean. Where `null` is only compared
and no object of the model is named like the type, all of these are booleans. -/
theorem checkIntraInvariant_booleans (m : Model) (policy : TernaryPolicy) (a : AggregateId)
    (index : Nat) (invariant : Invariant)
    (declared : (m.aggregate a).value.invariants[index]? = some invariant)
    (clean : (m.checkIntraInvariant policy a index).findings = []) :
    let env := (Env.forAggregate m (some a) policy).value
    let whole : Visit := ⟨.empty, .intraInvariant, invariant.expression⟩
    let type := (env.visit whole).value
    (type = .final ∨ type.GoesAsBoolean) ∧ env.Throughout (env.Demands Ty.GoesAsBoolean) whole ∧
      (invariant.expression.isNull = false → invariant.expression.NullsCompared →
        m.NoneNamedBoolean → (type = .final ∨ type.isBoolean = true) ∧
          env.Throughout (env.Demands (·.isBoolean = true)) whole) := by
  intro env whole type
  obtain ⟨hne, htype⟩ := type_of_checkIntraInvariant declared clean
  have hthroughout : env.Throughout (env.Demands Ty.GoesAsBoolean) whole :=
    Env.throughout_of_accepted hne
  refine ⟨htype, hthroughout, fun hnull hcompared hm => ?_⟩
  have hempty : Scope.empty.Supplies Ty.NoStandIn := by
    intro name t h
    cases h
  refine ⟨htype.imp_right fun hgoes => ?_, hthroughout.strict hm hempty hcompared⟩
  refine Ty.isBoolean_of_goesAsBoolean hgoes ?_
  exact Env.inherited_infer Ty.inherited_noStandIn (supplies_noStandIn hm) hempty hnull hcompared

/-- Orders with one invariant. -/
def ordersWith (e : Expr) : Model :=
  { orders with aggregates := [⟨"Orders", some ⟨0⟩, [⟨0⟩, ⟨1⟩], [⟨"pricing", e⟩]⟩] }

/-- `root.id != null and !root.lines.anyMatch(l -> l.price < 0)`. -/
def noDiscounts : Expr :=
  Expr.and (Expr.compare (Expr.root ["id"]) .ne Expr.null)
    (Expr.not ((Expr.root ["lines"]).callLambda .anyMatch "l"
      (Expr.compare (Expr.var "l" ["price"]) .lt (Expr.number "0"))))

/-- Here `null` is compared with an attribute, and both operands of the conjunction are booleans. -/
theorem checkIntraInvariant_booleans_noDiscounts :
    let m := ordersWith noDiscounts
    let env := (Env.forAggregate m (some ⟨0⟩) .boolean).value
    let whole : Visit := ⟨.empty, .intraInvariant, noDiscounts⟩
    (m.checkIntraInvariant .boolean ⟨0⟩ 0).findings = [] ∧ noDiscounts.isNull = false ∧
      noDiscounts.NullsCompared ∧ m.NoneNamedBoolean ∧ (env.visit whole).value.isBoolean = true ∧
      env.Throughout (env.Demands (·.isBoolean = true)) whole := by
  intro m env whole
  have clean : (m.checkIntraInvariant .boolean ⟨0⟩ 0).findings = [] := by decide
  have compared : noDiscounts.NullsCompared := by decide
  have named : m.NoneNamedBoolean := by decide
  obtain ⟨-, -, hstrict⟩ :=
    checkIntraInvariant_booleans m .boolean ⟨0⟩ 0 ⟨"pricing", noDiscounts⟩ rfl clean
  obtain ⟨htype, hthroughout⟩ := hstrict rfl compared named
  have hfinal : (env.visit whole).value ≠ .final := by decide
  exact ⟨clean, rfl, compared, named, htype.resolve_left hfinal, hthroughout⟩

/-- A `null` is accepted as an invariant and as an operand, and so is an entity that is named like
the type, though none of them is a boolean. -/
theorem checkIntraInvariant_accepts_standIns :
    let named := { ordersWith (Expr.not (Expr.root [])) with
      objects := [⟨"Boolean", ⟨0⟩, .entity ⟨none, none⟩, true, [], [], none, none, []⟩] }
    let findings := fun m : Model => (m.checkIntraInvariant .boolean ⟨0⟩ 0).findings
    let type := fun (m : Model) e =>
      ((Env.forAggregate m (some ⟨0⟩) .boolean).value.infer .empty .intraInvariant e).value
    (∀ e ∈ [Expr.null, Expr.not Expr.null],
      findings (ordersWith e) = [] ∧ type (ordersWith e) e = .null) ∧
    (findings (ordersWith (Expr.and Expr.null (Expr.boolean true))) = [] ∧
      type (ordersWith (Expr.and Expr.null (Expr.boolean true))) Expr.null = .null) ∧
    (findings named = [] ∧ type named (Expr.not (Expr.root [])) = .entity "Boolean" ∧
      type named (Expr.root []) = .entity "Boolean") ∧
    Ty.null.isBoolean = false ∧ (Ty.entity "Boolean").isBoolean = false := by
  decide

end Model

end DomainModel
