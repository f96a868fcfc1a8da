import DomainModel.Proofs.Nodes
import DomainModel.Proofs.Typing.Marks

/-! # What inference visits

The type of an expression comes from the types of some of its direct parts: both operands, the
branches of a ternary if its condition holds, the lambda bodies of a path up to the first fault.
`env.visits scope kind e` lists these parts in their order, each with the scope and the place at
which it is evaluated, and `env.rule scope kind e` is what is left of the check of `e` when only the
types of the parts are taken over.

* `value_infer`: the type is that of the rule.
* `findings_infer`: the findings are those of the visited parts, one part after the other, and then
  those of the rule.
* `marks_rule`: the rule marks places of the node itself, none of them twice. -/

namespace DomainModel

/-- A part of an expression that is evaluated, where it stands. -/
structure Visit where
  scope : Scope
  kind : ScopeKind
  part : Expr

open Check (stops_pure)

theorem Ty.isError_eq_false_of_ne {type : Ty} (h : type ≠ .error) : type.isError = false := by
  cases type with
  | error => exact absurd rfl h
  | _ => rfl

namespace Env

variable (env : Env)

/-- The type of a visited part, with what is found in it. -/
def visit (v : Visit) : Check Ty := env.infer v.scope v.kind v.part

/-- The lambda bodies that are evaluated in a chain of methods. -/
def methodVisits (id : ExprId) (scope : Scope) (index : Nat) (type : Ty) :
    List Method → List Visit
  | [] => []
  | .simple method :: methods =>
    let next := (simpleResult id index method type).value
    if next.isError then [] else methodVisits id scope (index + 1) next methods
  | .parametric method binder body :: methods =>
    match (lambdaScope id index method binder type scope).value with
    | none => []
    | some inner =>
      let v : Visit := ⟨inner, .methodLocal, body⟩
      let next := (lambdaResult id index method type (env.visit v).value).value
      v :: if next.isError then [] else methodVisits id scope (index + 1) next methods

/-- **The parts of an expression that are evaluated,** in their order. -/
def visits (scope : Scope) (kind : ScopeKind) : Expr → List Visit
  | ⟨_, .binary _ left right⟩ => [⟨scope, kind, left⟩, ⟨scope, kind, right⟩]
  | ⟨_, .lone _ operand⟩ | ⟨_, .negation operand⟩ | ⟨_, .signed _ operand⟩
  | ⟨_, .parenthesized operand⟩ => [⟨scope, kind, operand⟩]
  | ⟨id, .ternary condition thenValue elseValue⟩ =>
    ⟨scope, kind, condition⟩ ::
      if (conditionHolds id (env.infer scope kind condition).value).value then
        [⟨scope, kind, thenValue⟩, ⟨scope, kind, elseValue⟩]
      else []
  | ⟨id, .path head properties methods⟩ =>
    let type := (env.base id scope kind head properties).value
    if type.isError then [] else env.methodVisits id scope 0 type methods
  | ⟨_, .final _⟩ | ⟨_, .number _⟩ | ⟨_, .string _⟩ | ⟨_, .bool _⟩ | ⟨_, .null⟩ | ⟨_, .now⟩ => []

/-- The type after a chain of methods, from the types of the lambda bodies. -/
def methodRule (id : ExprId) (scope : Scope) (index : Nat) (type : Ty) : List Method → Check Ty
  | [] => return type
  | .simple method :: methods => do
    let next ← simpleResult id index method type
    if next.isError then return .error else methodRule id scope (index + 1) next methods
  | .parametric method binder body :: methods => do
    match ← lambdaScope id index method binder type scope with
    | none => return .error
    | some inner =>
      let next ← lambdaResult id index method type (env.visit ⟨inner, .methodLocal, body⟩).value
      if next.isError then return .error else methodRule id scope (index + 1) next methods

/-- **The check of an expression, its parts apart:** only their types are used. -/
def rule (scope : Scope) (kind : ScopeKind) : Expr → Check Ty
  | ⟨id, .binary op left right⟩ =>
    env.binaryResult id (env.infer scope kind left).value (env.infer scope kind right).value op
  | ⟨_, .lone _ operand⟩ | ⟨_, .parenthesized operand⟩ =>
    return (env.infer scope kind operand).value
  | ⟨id, .negation operand⟩ => env.negationResult id (env.infer scope kind operand).value
  | ⟨id, .signed _ operand⟩ => signedResult id (env.infer scope kind operand).value
  | ⟨id, .ternary condition thenValue elseValue⟩ => do
    if ← conditionHolds id (env.infer scope kind condition).value then
      env.ternaryResult id (env.infer scope kind thenValue).value
        (env.infer scope kind elseValue).value
    else return .error
  | ⟨id, .final chains⟩ => env.finalResult id kind chains
  | ⟨id, .path head properties methods⟩ => do
    let type ← env.base id scope kind head properties
    if type.isError then return .error else env.methodRule id scope 0 type methods
  | ⟨_, .number literal⟩ => return Literal.type literal
  | ⟨_, .string _⟩ => return .string
  | ⟨_, .bool _⟩ => return .boolean
  | ⟨_, .null⟩ => return .null
  | ⟨_, .now⟩ => return .dateTime

/-- What is found in visited parts, one part after the other. -/
def found (visits : List Visit) : List Finding := visits.flatMap fun v => (env.visit v).findings

@[simp] theorem found_nil : env.found [] = [] := rfl

@[simp] theorem found_cons (v : Visit) (visits : List Visit) :
    env.found (v :: visits) = (env.visit v).findings ++ env.found visits := rfl

/-! ### Going on unless there is an error

The steps along a path are each followed by the rest `f` unless their type is `error`. -/

section

variable {c f g : Check Ty} {P : Location → Prop}

/-- If the rest finds what is found in its visits and by its own rule, then so does the whole. -/
theorem findings_unless_error (hc : c.Stops P .error) {visits : List Visit}
    (h : f.findings = env.found visits ++ g.findings) :
    c.findings ++ (if c.value.isError then pure .error else f).findings =
      env.found (if c.value.isError then [] else visits) ++
        (c.findings ++ (if c.value.isError then pure .error else g).findings) := by
  by_cases hv : c.value = .error
  · simp [hv, Ty.isError]
  · rw [Ty.isError_eq_false_of_ne hv, hc.findings_eq_nil hv]
    simpa using h

theorem stops_unless_error {rest : Ty → Check Ty} (hc : c.Stops P .error)
    (hrest : ∀ type, (rest type).Stops P .error) :
    (c >>= fun type => if type.isError then pure .error else rest type).Stops P .error := by
  refine hc.bind rfl fun type => ?_
  split
  · exact stops_pure
  · exact hrest type

end

/-- What is visited behind a step is visited only if the step has a type. -/
theorem mem_unless_error {type : Ty} {v : Visit} {visits : List Visit}
    (h : v ∈ if type.isError then [] else visits) : type ≠ .error ∧ v ∈ visits := by
  by_cases htype : type = .error
  · rw [htype] at h
    cases h
  · rw [Ty.isError_eq_false_of_ne htype] at h
    exact ⟨htype, h⟩

/-! ### Methods -/

/-- A lambda is entered with a new variable, in the scope with one more binding. -/
theorem lambdaScope_eq_some {id : ExprId} {index : Nat} {method : ParametricMethod}
    {binder : String} {type : Ty} {scope inner : Scope}
    (h : (lambdaScope id index method binder type scope).value = some inner) :
    scope.lookup binder = none ∧ inner = .child scope binder type.unwrapCollection := by
  unfold lambdaScope Scope.bind at h
  split at h
  · cases h
  · cases hlookup : scope.lookup binder with
    | some existing =>
      rw [hlookup] at h
      cases h
    | none =>
      rw [hlookup] at h
      cases h
      exact ⟨rfl, rfl⟩

theorem value_methodRule (id : ExprId) (scope : Scope) (index : Nat) (type : Ty)
    (methods : List Method) :
    (env.methodRule id scope index type methods).value =
      (env.applyMethods id scope index type methods).value := by
  induction methods generalizing index type with
  | nil => rfl
  | cons first rest ih =>
    cases first with
    | simple method =>
      rw [methodRule, applyMethods, Check.value_bind, Check.value_bind]
      split
      · rfl
      · exact ih ..
    | parametric method binder body =>
      rw [methodRule, applyMethods, Check.value_bind, Check.value_bind]
      cases (lambdaScope id index method binder type scope).value with
      | none => rfl
      | some inner =>
        simp only [Check.value_bind, visit]
        split
        · rfl
        · exact ih ..

/-- What is found in a chain of methods is found in the lambda bodies or by the chain. -/
theorem findings_applyMethods (id : ExprId) (scope : Scope) (index : Nat) (type : Ty)
    (methods : List Method) :
    (env.applyMethods id scope index type methods).findings =
      env.found (env.methodVisits id scope index type methods) ++
        (env.methodRule id scope index type methods).findings := by
  induction methods generalizing index type with
  | nil => rfl
  | cons first rest ih =>
    cases first with
    | simple method =>
      have hstops : (simpleResult id index method type).Stops (fun _ => True) .error :=
        stops_simpleResult trivial method type
      rw [methodRule, applyMethods, methodVisits, Check.findings_bind, Check.findings_bind]
      exact env.findings_unless_error hstops (ih ..)
    | parametric method binder body =>
      have hscope : (lambdaScope id index method binder type scope).Stops (fun _ => True) none :=
        stops_lambdaScope trivial method binder type scope
      rw [methodRule, applyMethods, methodVisits, Check.findings_bind, Check.findings_bind]
      cases hinner : (lambdaScope id index method binder type scope).value with
      | none => simp
      | some inner =>
        have hsilent := hscope.findings_eq_nil (by rw [hinner]; exact Option.some_ne_none inner)
        have hstops : (lambdaResult id index method type
            (env.visit ⟨inner, .methodLocal, body⟩).value).Stops (fun _ => True) .error :=
          stops_lambdaResult trivial ..
        simp only [hsilent, List.nil_append, found_cons, List.append_assoc, Check.findings_bind]
        refine congrArg ((env.visit ⟨inner, .methodLocal, body⟩).findings ++ ·) ?_
        exact env.findings_unless_error hstops (ih ..)

/-- A chain of methods is marked at its first fault, at the position of a method. -/
theorem stops_methodRule {P : Location → Prop} (id : ExprId) (scope : Scope) (index : Nat)
    (type : Ty) (methods : List Method)
    (h : ∀ i, index ≤ i → i < index + methods.length → P ⟨.expr id, .methods, some i⟩) :
    (env.methodRule id scope index type methods).Stops P .error := by
  induction methods generalizing index type with
  | nil => exact stops_pure
  | cons first rest ih =>
    rw [List.length_cons] at h
    have hfirst : P ⟨.expr id, .methods, some index⟩ := h index (by omega) (by omega)
    have hrest : ∀ next, (env.methodRule id scope (index + 1) next rest).Stops P .error := by
      intro next
      refine ih (index + 1) next fun i hle hlt => h i ?_ ?_
      · omega
      · omega
    cases first with
    | simple method =>
      rw [methodRule]
      exact stops_unless_error (stops_simpleResult hfirst method type) hrest
    | parametric method binder body =>
      rw [methodRule]
      refine (stops_lambdaScope hfirst method binder type scope).bind rfl fun inner => ?_
      cases inner with
      | none => exact stops_pure
      | some inner => exact stops_unless_error (stops_lambdaResult hfirst ..) hrest

/-! ### The tree -/

/-- **The type of an expression comes from the types of the visited parts.** -/
theorem value_infer (scope : Scope) (kind : ScopeKind) (e : Expr) :
    (env.infer scope kind e).value = (env.rule scope kind e).value := by
  obtain ⟨id, form⟩ := e
  cases form with
  | path head properties methods =>
    rw [infer, rule, Check.value_bind, Check.value_bind]
    split
    · rfl
    · exact (env.value_methodRule ..).symm
  | ternary condition thenValue elseValue =>
    rw [infer, rule, Check.value_bind, Check.value_bind, Check.value_bind]
    split
    · rfl
    · rfl
  | _ => rw [infer, rule] <;> rfl

/-- **What is found in an expression** is found in the visited parts or by the rule of its form. -/
theorem findings_infer (scope : Scope) (kind : ScopeKind) (e : Expr) :
    (env.infer scope kind e).findings =
      env.found (env.visits scope kind e) ++ (env.rule scope kind e).findings := by
  obtain ⟨id, form⟩ := e
  cases form with
  | path head properties methods =>
    rw [infer, rule, visits, Check.findings_bind, Check.findings_bind]
    exact env.findings_unless_error (env.stops_base id scope kind head properties methods)
      (env.findings_applyMethods ..)
  | ternary condition thenValue elseValue =>
    have hstops : (conditionHolds id (env.infer scope kind condition).value).Stops
        (fun _ => True) false := stops_conditionHolds trivial _
    simp only [infer, rule, visits, Check.findings_bind, found_cons, List.append_assoc]
    refine congrArg ((env.infer scope kind condition).findings ++ ·) ?_
    cases hholds : (conditionHolds id (env.infer scope kind condition).value).value with
    | false => simp
    | true =>
      rw [hstops.findings_eq_nil (by simp [hholds])]
      simp [visit]
  | _ => simp [infer, rule, visits, visit]

/-- **An expression is marked at its own places,** each at most once, apart from its parts. -/
theorem marks_rule (scope : Scope) (kind : ScopeKind) (e : Expr) :
    (env.rule scope kind e).Marks e.Place := by
  obtain ⟨id, form⟩ := e
  cases form with
  | binary op left right => exact env.marks_binaryResult ..
  | negation operand => exact env.marks_negationResult _
  | signed op operand => exact (stops_signedResult .signed _).marks
  | ternary condition thenValue elseValue =>
    have hstops : (conditionHolds id (env.infer scope kind condition).value).Stops
        (Expr.Place ⟨id, .ternary condition thenValue elseValue⟩) false :=
      stops_conditionHolds .condition _
    rw [rule]
    refine hstops.bind_marks rfl fun holds htrue => ?_
    rw [if_pos (Bool.of_not_eq_false htrue)]
    exact env.marks_ternaryResult .thenValue .elseValue _ _
  | final chains => exact env.marks_finalResult id kind chains
  | path head properties methods =>
    refine Check.Stops.marks (?_ : Check.Stops _ Ty.error _)
    refine stops_unless_error (env.stops_base id scope kind head properties methods) fun type => ?_
    refine env.stops_methodRule id scope 0 type methods fun i _ hlt => .method ?_
    omega
  | _ => exact Check.marks_of_findings_nil rfl

/-! ### The parts that are visited -/

theorem sublist_bodies_methodVisits (id : ExprId) (scope : Scope) (index : Nat) (type : Ty)
    (methods : List Method) :
    ((env.methodVisits id scope index type methods).map Visit.part).Sublist
      (Expr.bodies methods) := by
  induction methods generalizing index type with
  | nil => exact List.Sublist.slnil
  | cons first rest ih =>
    have hrest : ∀ next : Ty, ((if next.isError then [] else
        env.methodVisits id scope (index + 1) next rest).map Visit.part).Sublist
          (Expr.bodies rest) := by
      intro next
      split
      · exact List.nil_sublist _
      · exact ih ..
    cases first with
    | simple method => exact hrest _
    | parametric method binder body =>
      rw [methodVisits]
      split
      · exact List.nil_sublist _
      · exact (hrest _).cons_cons body

/-- What is visited are direct parts, in their order and each once at most. -/
theorem sublist_children_visits (scope : Scope) (kind : ScopeKind) (e : Expr) :
    ((env.visits scope kind e).map Visit.part).Sublist e.children := by
  obtain ⟨id, form⟩ := e
  cases form with
  | ternary condition thenValue elseValue =>
    rw [visits, Expr.children]
    refine List.Sublist.cons_cons condition ?_
    split
    · exact List.Sublist.refl _
    · exact List.nil_sublist _
  | path head properties methods =>
    rw [visits, Expr.children]
    split
    · exact List.nil_sublist _
    · exact env.sublist_bodies_methodVisits ..
  | _ => exact List.Sublist.refl _

theorem mem_children_of_visits {scope : Scope} {kind : ScopeKind} {e : Expr} {v : Visit}
    (hv : v ∈ env.visits scope kind e) : v.part ∈ e.children :=
  (env.sublist_children_visits scope kind e).subset (List.mem_map_of_mem hv)

end Env

end DomainModel
