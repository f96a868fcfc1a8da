import DomainModel.Expr.Build
import DomainModel.Proofs.Totality.Typing

/-! # Errors are reported, and only errors are

The type `error` stands for an expression whose problem has been reported. In a scope without
errors inference gives `error` exactly if it reports something (`Env.typed_infer`), so a caller that
sees a type may rely on it, and one that sees `error` need not report anything itself.

`c.Decides good bad` says of a check `c` that it either keeps silent and has a `good` value, or
reports and has a `bad` one. Silence and goodness are handed on together: a step behind a good value
decides anew, a step behind a bad one only has to keep the value bad. -/

namespace DomainModel

/-- The type is `error`, or wraps it. -/
def Ty.hasError : Ty → Bool
  | error => true
  | collection t | optional t => t.hasError
  | primitive _ | entity _ | final | null => false

/-- No visible variable has a type with an error. -/
def Scope.ErrorFree (s : Scope) : Prop :=
  ∀ name type, s.lookup name = some type → type.hasError = false

namespace Check

variable {α β : Type}

/-- The check is silent and its value good, or it reports and its value is bad. -/
def Decides (good bad : α → Prop) (c : Check α) : Prop :=
  (c.findings = [] ∧ good c.value) ∨ (c.findings ≠ [] ∧ bad c.value)

/-- A type without error, or a report and `error`. -/
abbrev Typed (c : Check Ty) : Prop := c.Decides (·.hasError = false) (· = .error)

/-- Something with the property, or a report and nothing. -/
abbrev Locates (P : α → Prop) (c : Check (Option α)) : Prop :=
  c.Decides (fun r => ∃ a, r = some a ∧ P a) (· = none)

/-- Silence and `true`, or a report and `false`. -/
abbrev Accepts (c : Check Bool) : Prop := c.Decides (· = true) (· = false)

variable {good bad : α → Prop} {good' bad' : β → Prop}

theorem decides_pure {a : α} (h : good a) : Decides good bad (pure a : Check α) := Or.inl ⟨rfl, h⟩

theorem Decides.bind {c : Check α} {f : α → Check β} (hc : c.Decides good bad)
    (hgood : ∀ a, good a → (f a).Decides good' bad') (hbad : ∀ a, bad a → bad' (f a).value) :
    (c >>= f).Decides good' bad' := by
  unfold Decides
  rw [findings_bind, value_bind]
  rcases hc with ⟨h1, h2⟩ | ⟨h1, h2⟩
  · rw [h1, List.nil_append]
    exact hgood c.value h2
  · refine Or.inr ⟨?_, hbad c.value h2⟩
    intro h
    exact h1 (List.append_eq_nil_iff.mp h).1

theorem Typed.bind {c : Check Ty} {f : Ty → Check β} (hc : c.Typed)
    (hgood : ∀ type, type.hasError = false → (f type).Decides good' bad')
    (herror : bad' (f .error).value) : (c >>= f).Decides good' bad' := by
  refine Decides.bind hc hgood ?_
  rintro _ rfl
  exact herror

theorem Locates.bind {P : α → Prop} {c : Check (Option α)} {f : Option α → Check β}
    (hc : c.Locates P) (hsome : ∀ a, P a → (f (some a)).Decides good' bad')
    (hnone : bad' (f none).value) : (c >>= f).Decides good' bad' := by
  refine Decides.bind hc ?_ ?_
  · rintro _ ⟨a, rfl, ha⟩
    exact hsome a ha
  · rintro _ rfl
    exact hnone

theorem Accepts.bind {c : Check Bool} {f : Bool → Check β} (hc : c.Accepts)
    (htrue : (f true).Decides good' bad') (hfalse : bad' (f false).value) :
    (c >>= f).Decides good' bad' := by
  refine Decides.bind hc ?_ ?_
  · rintro _ rfl
    exact htrue
  · rintro _ rfl
    exact hfalse

/-- A look-up in front reports nothing. -/
theorem decides_lift_bind {x : Lookup α} {f : α → Check β} (h : (f x.value).Decides good' bad') :
    ((liftM x : Check α) >>= f).Decides good' bad' := by
  unfold Decides
  rw [findings_bind, value_bind, findings_lift, List.nil_append]
  exact h

end Check

open Check (Typed Locates Accepts decides_pure decides_lift_bind)

theorem Ty.isError_eq_false {t : Ty} (h : t.hasError = false) : t.isError = false := by
  cases t with
  | error => simp [hasError] at h
  | _ => rfl

/-- What holds of the types of all visible variables, and of one more. -/
theorem Scope.forall_lookup_child {P : Ty → Prop} {s : Scope}
    (hs : ∀ name type, s.lookup name = some type → P type) {bound : String} {type : Ty}
    (ht : P type) : ∀ name t, (child s bound type).lookup name = some t → P t := by
  intro name t h
  unfold lookup at h
  split at h
  · cases h
    exact ht
  · exact hs name t h

theorem Scope.ErrorFree.child {s : Scope} (hs : s.ErrorFree) {name : String} {type : Ty}
    (ht : type.hasError = false) : (child s name type).ErrorFree :=
  forall_lookup_child (P := (·.hasError = false)) hs ht

/-! ### Walks -/

namespace Model

variable (m : Model)

section

variable {P : Ty → Prop} (collection : ∀ o, P (.collection (.entity (m.object o).value.name)))
  (primitive : ∀ a, P (.primitive (m.attributeOf a).value.type))

include collection primitive

/-- A property with a type is a collection of entities or an attribute. -/
theorem type_of_step {o : ObjectId} {property : String} {t : Ty}
    (h : (m.step o property).value = .terminal t) : P t := by
  unfold step at h
  simp only [Lookup.value_bind] at h
  split at h
  · rw [Lookup.value_bind] at h
    split at h
    · cases h
    · split at h <;> cases h
      exact collection _
  · rw [Lookup.value_bind] at h
    split at h <;> cases h
    exact primitive _

/-- A walk ends at an entity, at a collection of entities or at an attribute. -/
theorem type_of_walkFrom (entity : ∀ o, P (.entity (m.object o).value.name)) {o : ObjectId}
    {position : Nat} {properties : List String} {t : Ty}
    (h : (m.walkFrom position o properties).value = .ok t) : P t := by
  induction properties generalizing o position with
  | nil =>
    cases h
    exact entity _
  | cons property rest ih =>
    unfold walkFrom at h
    simp only [Lookup.value_bind] at h
    split at h
    · exact ih h
    · next type hstep =>
      split at h <;> cases h
      exact m.type_of_step collection primitive hstep
    · cases h

end

end Model

/-- A start at a value has a type without error. -/
def Start.ErrorFree : Start → Prop
  | object _ => True
  | terminal type => type.hasError = false

namespace Env

variable (env : Env)

/-! ### Heads -/

theorem locates_refuse {α : Type} {P : α → Prop} (id : ExprId) (f : Feature) (p : Problem) :
    Locates P (refuse id f p) :=
  Or.inr ⟨by simp [refuse], rfl⟩

theorem locates_refuseAt {α : Type} {P : α → Prop} (id : ExprId) (f : Feature) (i : Nat)
    (p : Problem) : Locates P (refuseAt id f i p) :=
  Or.inr ⟨by simp [refuseAt], rfl⟩

theorem locates_root (id : ExprId) (feature : Feature) :
    Locates (fun _ => True) (env.root id feature) := by
  unfold root
  cases env.aggregate with
  | none => exact locates_refuse id feature .noRootEntity
  | some a =>
    refine decides_lift_bind ?_
    cases (env.model.rootEntity a).value with
    | none => exact locates_refuse ..
    | some o => exact decides_pure ⟨o, rfl, trivial⟩

theorem locates_variableStart (id : ExprId) (name : String) {type : Ty}
    (ht : type.hasError = false) : Locates Start.ErrorFree (env.variableStart id name type) := by
  have hterminal : Locates Start.ErrorFree (return some (.terminal type) : Check (Option Start)) :=
    decides_pure ⟨.terminal type, rfl, ht⟩
  unfold variableStart
  cases type with
  | error => simp [Ty.hasError] at ht
  | collection t => exact hterminal
  | optional t => exact hterminal
  | primitive n | entity n =>
    refine decides_lift_bind ?_
    split
    · next o _ => exact decides_pure ⟨.object o, rfl, trivial⟩
    · split
      · exact hterminal
      · exact locates_refuse ..
  | final => exact locates_refuse ..
  | null => exact locates_refuse ..

theorem locates_queryOperation (id : ExprId) (name : String) :
    Locates (fun _ => True) (env.queryOperation id name) := by
  refine (env.locates_root id .queryOperation).bind (fun root _ => decides_lift_bind ?_) rfl
  split
  · exact locates_refuse ..
  · split
    · exact locates_refuse ..
    · next operation _ => exact decides_pure ⟨operation, rfl, trivial⟩

theorem locates_queryStart (id : ExprId) (name : String) (operation : RepositoryOperation) :
    Locates Start.ErrorFree (env.queryStart id name operation) := by
  refine decides_lift_bind ?_
  split
  · exact locates_refuse ..
  · next o isCollection _ =>
    refine decides_lift_bind ?_
    split
    · exact decides_lift_bind (locates_refuse ..)
    · split
      · exact decides_lift_bind (decides_pure ⟨_, rfl, rfl⟩)
      · exact decides_pure ⟨.object o, rfl, trivial⟩

theorem locates_query (id : ExprId) (name : String) (params : List String) (scope : Scope) :
    Locates Start.ErrorFree (env.query id name params scope) := by
  refine (env.locates_queryOperation id name).bind (fun operation _ => ?_) rfl
  dsimp only
  split
  · exact locates_refuse ..
  · split
    · exact locates_refuseAt ..
    · refine decides_lift_bind ?_
      split
      · exact locates_refuseAt ..
      · exact env.locates_queryStart ..

theorem locates_head (id : ExprId) {scope : Scope} (hs : scope.ErrorFree) (kind : ScopeKind)
    (head : PathHead) : Locates Start.ErrorFree (env.head id scope kind head) := by
  cases head with
  | root =>
    rw [Env.head]
    split
    · exact locates_refuse ..
    · refine (env.locates_root id .headElement).bind (fun o _ => ?_) rfl
      exact decides_pure ⟨.object o, rfl, trivial⟩
  | query operation params =>
    rw [Env.head]
    split
    · exact locates_refuse ..
    · exact env.locates_query id operation params scope
  | «variable» name =>
    rw [Env.head]
    split
    · exact locates_refuse ..
    · split
      · exact locates_refuse ..
      · next type hlookup => exact env.locates_variableStart id name (hs name type hlookup)

/-! ### Operators

Each rule is silent about an operand of type `error` and gives `error` itself. -/

theorem typed_fail (id : ExprId) (f : Feature) (p : Problem) : Typed (fail id f p) :=
  Or.inr ⟨by simp [fail], rfl⟩

theorem typed_failAt (id : ExprId) (f : Feature) (i : Nat) (p : Problem) :
    Typed (failAt id f i p) :=
  Or.inr ⟨by simp [failAt], rfl⟩

theorem accepts_expectBoolean (id : ExprId) (f : Feature) (type : Ty) :
    Accepts (env.expectBoolean id f type) := by
  unfold expectBoolean
  split
  · exact decides_pure rfl
  · exact Or.inr ⟨by simp, rfl⟩

theorem typed_booleanResult (id : ExprId) {left right : Ty} (hl : left.hasError = false)
    (hr : right.hasError = false) : Typed (env.booleanResult id left right) := by
  refine (env.accepts_expectBoolean id .left left).bind ?_ rfl
  refine (env.accepts_expectBoolean id .right right).bind ?_ rfl
  rw [Ty.isError_eq_false hl, Ty.isError_eq_false hr]
  exact decides_pure rfl

theorem typed_comparisonResult (id : ExprId) {left right : Ty} (hl : left.hasError = false)
    (hr : right.hasError = false) : Typed (env.comparisonResult id left right) := by
  unfold comparisonResult
  rw [Ty.isError_eq_false hl, Ty.isError_eq_false hr, if_neg (by simp)]
  split
  · exact decides_pure rfl
  · exact typed_fail ..

theorem findings_expectNumeric (id : ExprId) (f : Feature) {type : Ty}
    (ht : type.hasError = false) :
    (expectNumeric id f type).findings = [] ↔ type.isNumeric = true := by
  unfold expectNumeric
  rw [Ty.isError_eq_false ht]
  cases type.isNumeric <;> simp

theorem typed_arithmeticResult (id : ExprId) {left right : Ty} (hl : left.hasError = false)
    (hr : right.hasError = false) : Typed (arithmeticResult id left right) := by
  have hvalue : (arithmeticResult id left right).value =
      if left.isNumeric && right.isNumeric then left else .error := rfl
  have hfindings : (arithmeticResult id left right).findings = [] ↔
      left.isNumeric = true ∧ right.isNumeric = true := by
    rw [← findings_expectNumeric id .left hl, ← findings_expectNumeric id .right hr]
    simp [arithmeticResult]
  by_cases h : left.isNumeric = true ∧ right.isNumeric = true
  · refine Or.inl ⟨hfindings.mpr h, ?_⟩
    rw [hvalue, h.1, h.2]
    exact hl
  · refine Or.inr ⟨fun h' => h (hfindings.mp h'), ?_⟩
    rw [hvalue, if_neg (by simpa using h)]

theorem typed_binaryResult (id : ExprId) {left right : Ty} (hl : left.hasError = false)
    (hr : right.hasError = false) (op : BinaryOp) : Typed (env.binaryResult id left right op) := by
  cases op with
  | boolean op => exact env.typed_booleanResult id hl hr
  | comparison op => exact env.typed_comparisonResult id hl hr
  | addition op => exact typed_arithmeticResult id hl hr
  | multiplication op => exact typed_arithmeticResult id hl hr

theorem value_binaryResult_error_left (id : ExprId) (right : Ty) (op : BinaryOp) :
    (env.binaryResult id .error right op).value = .error := by
  cases op with
  | boolean op => simp [binaryResult, booleanResult, Ty.isError]
  | comparison op => rfl
  | addition op => rfl
  | multiplication op => rfl

theorem value_binaryResult_error_right (id : ExprId) (left : Ty) (op : BinaryOp) :
    (env.binaryResult id left .error op).value = .error := by
  cases op with
  | boolean op => simp [binaryResult, booleanResult, Ty.isError]
  | comparison op => simp [binaryResult, comparisonResult, Ty.isError]
  | addition op => simp [binaryResult, arithmeticResult, Ty.isNumeric]
  | multiplication op => simp [binaryResult, arithmeticResult, Ty.isNumeric]

theorem typed_negationResult (id : ExprId) {operand : Ty} (h : operand.hasError = false) :
    Typed (env.negationResult id operand) :=
  (env.accepts_expectBoolean id .operand operand).bind (decides_pure h) rfl

theorem value_negationResult_error (id : ExprId) :
    (env.negationResult id .error).value = .error := by
  simp [negationResult]

theorem typed_signedResult (id : ExprId) {operand : Ty} (h : operand.hasError = false) :
    Typed (signedResult id operand) := by
  unfold signedResult
  split
  · exact decides_pure h
  · exact typed_fail ..

/-! ### Ternaries -/

theorem accepts_conditionHolds (id : ExprId) {condition : Ty} (h : condition.hasError = false) :
    Accepts (conditionHolds id condition) := by
  unfold conditionHolds
  rw [Ty.isError_eq_false h, if_neg (by simp)]
  split
  · exact decides_pure rfl
  · exact Or.inr ⟨by simp, rfl⟩

theorem typed_ternaryResult (id : ExprId) {thenType elseType : Ty} (ht : thenType.hasError = false)
    (he : elseType.hasError = false) : Typed (env.ternaryResult id thenType elseType) := by
  unfold ternaryResult
  rw [Ty.isError_eq_false ht, Ty.isError_eq_false he, if_neg (by simp)]
  cases env.policy with
  | boolean =>
    dsimp only
    cases thenType.isBoolean <;> cases elseType.isBoolean
    · exact Or.inr ⟨by simp, rfl⟩
    · exact Or.inr ⟨by simp, rfl⟩
    · exact Or.inr ⟨by simp, rfl⟩
    · exact Or.inl ⟨rfl, rfl⟩
  | matching =>
    dsimp only
    split
    · exact typed_fail ..
    · refine decides_pure ?_
      split
      · exact he
      · exact ht

theorem value_ternaryResult_error_then (id : ExprId) (elseType : Ty) :
    (env.ternaryResult id .error elseType).value = .error := rfl

theorem value_ternaryResult_error_else (id : ExprId) (thenType : Ty) :
    (env.ternaryResult id thenType .error).value = .error := by
  simp [ternaryResult, Ty.isError]

/-! ### Final expressions and paths -/

theorem accepts_checkChains (id : ExprId) (root : ObjectId) (index : Nat)
    (chains : List (List String)) : Accepts (env.checkChains id root index chains) := by
  induction chains generalizing index with
  | nil => exact decides_pure rfl
  | cons chain chains ih =>
    refine decides_lift_bind ?_
    cases (env.offendingPosition root chain).value with
    | none =>
      exact (ih (index + 1)).bind (decides_pure rfl) rfl
    | some position => exact decides_lift_bind (Or.inr ⟨by simp, rfl⟩)

theorem typed_finalResult (id : ExprId) (kind : ScopeKind) (chains : List (List String)) :
    Typed (env.finalResult id kind chains) := by
  unfold finalResult
  split
  · exact typed_fail ..
  · refine (env.locates_root id .finalElements).bind (fun root _ => ?_) rfl
    exact (env.accepts_checkChains id root 0 chains).bind (decides_pure rfl) rfl

theorem typed_propertyError (id : ExprId) (properties : List String) (position : Nat) :
    Typed (propertyError id properties position) :=
  decides_lift_bind (typed_failAt ..)

theorem typed_base (id : ExprId) {scope : Scope} (hs : scope.ErrorFree) (kind : ScopeKind)
    (head : PathHead) (properties : List String) :
    Typed (env.base id scope kind head properties) := by
  refine (env.locates_head id hs kind head).bind (fun start hstart => ?_) rfl
  cases start with
  | object o =>
    refine decides_lift_bind ?_
    split
    · next type hwalk =>
      exact decides_pure (env.model.type_of_walkFrom (P := (·.hasError = false)) (fun _ => rfl)
        (fun _ => rfl) (fun _ => rfl) hwalk)
    · exact typed_propertyError ..
  | terminal type =>
    dsimp only
    split
    · exact decides_pure hstart
    · exact typed_propertyError ..

/-! ### Methods -/

theorem hasError_unwrapCollection {type : Ty} (hc : type.isCollection = true)
    (h : type.hasError = false) : type.unwrapCollection.hasError = false := by
  cases type with
  | collection t => exact h
  | _ => simp [Ty.isCollection] at hc

theorem hasError_unwrapOptional {type : Ty} (ho : type.isOptional = true)
    (h : type.hasError = false) : type.unwrapOptional.hasError = false := by
  cases type with
  | optional t => exact h
  | _ => simp [Ty.isOptional] at ho

theorem typed_simpleResult (id : ExprId) (index : Nat) (method : SimpleMethod) {type : Ty}
    (h : type.hasError = false) : Typed (simpleResult id index method type) := by
  cases method with
  | count =>
    rw [simpleResult]
    split
    · exact decides_pure rfl
    · exact typed_failAt ..
  | distinct =>
    rw [simpleResult]
    split
    · exact decides_pure h
    · exact typed_failAt ..
  | findAny | findFirst =>
    rw [simpleResult]
    split
    · next hc => exact decides_pure (hasError_unwrapCollection hc h)
    · exact typed_failAt ..
  | isEmpty =>
    rw [simpleResult]
    split
    · exact decides_pure rfl
    · exact typed_failAt ..
  | get =>
    rw [simpleResult]
    split
    · next ho => exact decides_pure (hasError_unwrapOptional ho h)
    · exact typed_failAt ..

theorem locates_lambdaScope (id : ExprId) (index : Nat) (method : ParametricMethod)
    (binder : String) {type : Ty} (h : type.hasError = false) {scope : Scope}
    (hs : scope.ErrorFree) :
    Locates Scope.ErrorFree (lambdaScope id index method binder type scope) := by
  unfold lambdaScope
  split
  · exact locates_refuseAt ..
  · next hc =>
    have hu := hasError_unwrapCollection (by simpa using hc) h
    unfold Scope.bind
    cases scope.lookup binder with
    | some existing => exact locates_refuseAt ..
    | none => exact decides_pure ⟨_, rfl, hs.child hu⟩

theorem typed_lambdaResult (id : ExprId) (index : Nat) (method : ParametricMethod) {type body : Ty}
    (ht : type.hasError = false) (hb : body.hasError = false) :
    Typed (lambdaResult id index method type body) := by
  unfold lambdaResult
  rw [Ty.isError_eq_false hb, if_neg (by simp)]
  split
  · exact typed_failAt ..
  · cases method with
    | allMatch | anyMatch | noneMatch => exact decides_pure rfl
    | filter => exact decides_pure ht
    | map => exact decides_pure hb
    | flatMap => exact decides_pure hb

/-! ### The tree -/

theorem hasError_literal (literal : String) : (Literal.type literal).hasError = false := by
  unfold Literal.type
  split <;> rfl

mutual

/-- **Inference gives a type without error and is silent, or it gives `error` and reports.** -/
theorem typed_infer {scope : Scope} (hs : scope.ErrorFree) (kind : ScopeKind) :
    ∀ e, Typed (env.infer scope kind e)
  | ⟨id, .binary op left right⟩ => by
    rw [infer]
    refine (typed_infer hs kind left).bind (fun leftType hl => ?_)
      (env.value_binaryResult_error_left ..)
    refine (typed_infer hs kind right).bind (fun rightType hr => ?_)
      (env.value_binaryResult_error_right ..)
    exact env.typed_binaryResult id hl hr op
  | ⟨_, .lone _ operand⟩ => by
    rw [infer]
    exact typed_infer hs kind operand
  | ⟨id, .negation operand⟩ => by
    rw [infer]
    exact (typed_infer hs kind operand).bind (fun type h => env.typed_negationResult id h)
      (env.value_negationResult_error id)
  | ⟨id, .signed _ operand⟩ => by
    rw [infer]
    exact (typed_infer hs kind operand).bind (fun type h => typed_signedResult id h) rfl
  | ⟨id, .ternary condition thenValue elseValue⟩ => by
    rw [infer]
    refine (typed_infer hs kind condition).bind (fun conditionType hc => ?_) rfl
    refine (accepts_conditionHolds id hc).bind ?_ rfl
    refine (typed_infer hs kind thenValue).bind (fun thenType ht => ?_)
      (env.value_ternaryResult_error_then id (env.infer scope kind elseValue).value)
    refine (typed_infer hs kind elseValue).bind (fun elseType he => ?_)
      (env.value_ternaryResult_error_else ..)
    exact env.typed_ternaryResult id ht he
  | ⟨id, .final chains⟩ => by
    rw [infer]
    exact env.typed_finalResult id kind chains
  | ⟨id, .path head properties methods⟩ => by
    rw [infer]
    refine (env.typed_base id hs kind head properties).bind (fun type h => ?_) rfl
    rw [Ty.isError_eq_false h]
    exact typed_applyMethods id hs 0 h methods
  | ⟨_, .parenthesized inner⟩ => by
    rw [infer]
    exact typed_infer hs kind inner
  | ⟨_, .number literal⟩ => by
    rw [infer]
    exact decides_pure (hasError_literal literal)
  | ⟨_, .string _⟩ | ⟨_, .bool _⟩ | ⟨_, .null⟩ | ⟨_, .now⟩ => by
    rw [infer]
    exact decides_pure rfl

theorem typed_applyMethods (id : ExprId) {scope : Scope} (hs : scope.ErrorFree) (index : Nat)
    {type : Ty} (h : type.hasError = false) :
    ∀ methods, Typed (env.applyMethods id scope index type methods)
  | [] => by
    rw [applyMethods]
    exact decides_pure h
  | .simple method :: methods => by
    rw [applyMethods]
    refine (typed_simpleResult id index method h).bind (fun next hn => ?_) rfl
    rw [Ty.isError_eq_false hn]
    exact typed_applyMethods id hs (index + 1) hn methods
  | .parametric method binder body :: methods => by
    rw [applyMethods]
    refine (locates_lambdaScope id index method binder h hs).bind (fun inner hi => ?_) rfl
    refine (typed_infer hi .methodLocal body).bind (fun bodyType hb => ?_) rfl
    refine (typed_lambdaResult id index method h hb).bind (fun next hn => ?_) rfl
    rw [Ty.isError_eq_false hn]
    exact typed_applyMethods id hs (index + 1) hn methods

end

end Env

namespace Model

/-- **An expression has the type `error` exactly if something was reported about it,** and any other
type it has wraps no error. -/
theorem inferType_error_iff_reported (m : Model) (linked : m.Linked)
    (aggregate : Option AggregateId) (known : ∀ a ∈ aggregate, m.Holds a.any)
    (policy : TernaryPolicy) (scope : Scope) (errorFree : scope.ErrorFree) (kind : ScopeKind)
    (e : Expr) :
    (m.inferType aggregate policy scope kind e).misses = [] ∧
      ((m.inferType aggregate policy scope kind e).value = .error ↔
        (m.inferType aggregate policy scope kind e).findings ≠ []) ∧
      ((m.inferType aggregate policy scope kind e).value ≠ .error →
        (m.inferType aggregate policy scope kind e).value.hasError = false) := by
  have hmisses := total_inferType (linked_iff_inRange.mp linked) known policy scope kind e
  have htyped : Typed (m.inferType aggregate policy scope kind e) :=
    decides_lift_bind (Env.typed_infer _ errorFree kind e)
  refine ⟨hmisses.misses_eq, ?_⟩
  rcases htyped with ⟨hsilent, hgood⟩ | ⟨hreported, herror⟩
  · refine ⟨⟨fun h => ?_, fun h => absurd hsilent h⟩, fun _ => hgood⟩
    rw [h] at hgood
    cases hgood
  · exact ⟨⟨fun _ => hreported, fun _ => herror⟩, fun h => absurd herror h⟩

/-- `root.lines.allMatch(l -> l.property < limit.get())`. -/
def linesBelow (property : String) : Expr :=
  (Expr.root ["lines"]).callLambda .allMatch "l"
    (Expr.compare (Expr.var "l" [property]) .lt ((Expr.var "limit" []).callSimple .get))

/-- Lines have a price. A misspelt one is reported in the lambda, and the error goes all the way
up. -/
theorem inferType_error_iff_reported_linesBelow :
    let type := fun property =>
      orders.inferType (some ⟨0⟩) .boolean (.root [("limit", .optional .long)])
        .constructorAssignment (linesBelow property)
    ((type "price").value.hasError = false ∧ (type "price").findings = []) ∧
      (type "prize").value = .error ∧ (type "prize").findings ≠ [] := by
  intro type
  have errorFree : (Scope.root [("limit", .optional .long)]).ErrorFree := by
    intro name t h
    obtain ⟨⟨n, u⟩, hfind, rfl⟩ := Option.map_eq_some_iff.mp h
    have hmem := List.mem_of_find?_eq_some hfind
    simp only [List.reverse_singleton, List.mem_singleton, Prod.mk.injEq] at hmem
    rw [hmem.2]
    rfl
  have h := fun property => inferType_error_iff_reported orders (by decide) (some ⟨0⟩)
    (by decide) .boolean _ errorFree .constructorAssignment (linesBelow property)
  have hprice : (type "price").value ≠ .error := by decide
  have hprize : (type "prize").value = .error := by decide
  refine ⟨⟨(h "price").2.2 hprice, ?_⟩, hprize, (h "prize").2.1.mp hprize⟩
  exact Classical.byContradiction fun hreported => hprice ((h "price").2.1.mpr hreported)

end Model

end DomainModel
