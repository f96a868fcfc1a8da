import DomainModel.Typing.Infer
import DomainModel.Proofs.Totality.Navigation

/-! # Inference in a model in range

In a model whose handles are in range, the type of every expression is found without a miss, for
every aggregate of the model (or none), every scope and every kind of place. An index that is read
behind a failed walk is the position of a property of the chain that was walked. -/

namespace DomainModel

/-! ### Walks -/

namespace Model

variable {m : Model} (hm : m.InRange)
include hm

theorem finds_propertyOwner {o : ObjectId} (ho : m.Holds o.any) :
    (m.propertyOwner o).Finds fun p => m.Holds p.any := by
  refine (finds_object hm ho).bind fun n hn => .pure ?_
  cases hu : n.uses? with
  | none => exact ho
  | some u =>
    cases hv : u.valueObject with
    | none => simpa [hv] using ho
    | some v => simpa [hv] using (hn.uses u hu).valueObject v hv

/-- Where a step leads is inside the model. -/
theorem finds_step {o : ObjectId} (ho : m.Holds o.any) (property : String) :
    (m.step o property).Finds fun s => ∀ t, s = .object t → m.Holds t.any := by
  refine (finds_propertyOwner hm ho).bind fun owner howner => ?_
  refine (finds_referenceByName hm howner property).bind fun r hr => ?_
  cases r with
  | some r =>
    refine (finds_reference hm (hr r rfl)).bind fun n hn => ?_
    cases ht : n.target with
    | none => exact .pure (by simp)
    | some target =>
      have htarget := hn.target target ht
      dsimp only
      split
      · exact (finds_object hm htarget).bind fun _ _ => .pure (by simp)
      · refine .pure ?_
        rintro t h
        cases h
        exact htarget
  | none =>
    refine (finds_attributeByName hm howner property).bind fun a ha => ?_
    cases a with
    | some a => exact (finds_attributeOf hm (ha a rfl)).bind fun _ _ => .pure (by simp)
    | none => exact .pure (by simp)

/-- A walk that fails gives a position in its chain. -/
theorem finds_walkFrom {o : ObjectId} (ho : m.Holds o.any) (position : Nat)
    (properties : List String) :
    (m.walkFrom position o properties).Finds fun r =>
      ∀ i, r = .error i → i < position + properties.length := by
  induction properties generalizing o position with
  | nil => exact (finds_object hm ho).bind fun _ _ => .pure (by simp)
  | cons property rest ih =>
    refine (finds_step hm ho property).bind fun s hs => ?_
    cases s with
    | object t =>
      refine (ih (hs t rfl) (position + 1)).mono fun r hr i hi => ?_
      have := hr i hi
      simp only [List.length_cons]
      omega
    | terminal type =>
      cases rest with
      | nil => exact .pure (by simp)
      | cons next rest =>
        refine .pure ?_
        rintro i h
        cases h
        simp
    | nowhere =>
      refine .pure ?_
      rintro i h
      cases h
      simp

theorem finds_walk {o : ObjectId} (ho : m.Holds o.any) (properties : List String) :
    (m.walk o properties).Finds fun r => ∀ i, r = .error i → i < properties.length := by
  refine (finds_walkFrom hm ho 0 properties).mono fun r hr i hi => ?_
  have := hr i hi
  omega

theorem total_complexType {t : ComplexType} (ht : t.InRange m) : (t.type m).Total := by
  unfold ComplexType.type
  cases htarget : t.target with
  | primitive name => exact .pure trivial
  | domainObject o =>
    cases o with
    | none => exact .pure trivial
    | some o => exact (finds_object hm (ht o htarget)).bind fun _ _ => .pure trivial

end Model

/-! ### Heads -/

namespace Env

/-- The environment belongs to a model in range and to one of its aggregates, or to none. -/
structure InRange (env : Env) : Prop where
  model : env.model.InRange
  aggregate : ∀ a ∈ env.aggregate, env.model.Holds a.any

theorem finds_forAggregate {m : Model} (hm : m.InRange) {aggregate : Option AggregateId}
    (ha : ∀ a ∈ aggregate, m.Holds a.any) (policy : TernaryPolicy) :
    (forAggregate m aggregate policy).Finds InRange := by
  unfold forAggregate
  cases aggregate with
  | none => exact .pure ⟨hm, ha⟩
  | some a => exact (Model.total_entityNames hm (ha a rfl)).bind fun _ _ => .pure ⟨hm, ha⟩

theorem finds_refuse {α : Type} (id : ExprId) (f : Feature) (p : Problem) :
    (refuse id f p : Check (Option α)).Finds (· = none) :=
  ⟨rfl, rfl⟩

theorem finds_refuseAt {α : Type} (id : ExprId) (f : Feature) (i : Nat) (p : Problem) :
    (refuseAt id f i p : Check (Option α)).Finds (· = none) :=
  ⟨rfl, rfl⟩

/-- The object where a path starts is one of the model. -/
def Starts (env : Env) (r : Option Start) : Prop :=
  ∀ o, r = some (.object o) → env.model.Holds o.any

theorem starts_none (env : Env) : env.Starts none := by
  rintro o ⟨⟩

theorem starts_terminal (env : Env) (type : Ty) : env.Starts (some (.terminal type)) := by
  rintro o ⟨⟩

theorem starts_object {env : Env} {o : ObjectId} (h : env.model.Holds o.any) :
    env.Starts (some (.object o)) := by
  rintro _ ⟨⟩
  exact h

theorem starts_refuse (env : Env) (id : ExprId) (f : Feature) (p : Problem) :
    (refuse id f p).Finds env.Starts :=
  (finds_refuse id f p).mono fun _ h => h ▸ env.starts_none

theorem starts_refuseAt (env : Env) (id : ExprId) (f : Feature) (i : Nat) (p : Problem) :
    (refuseAt id f i p).Finds env.Starts :=
  (finds_refuseAt id f i p).mono fun _ h => h ▸ env.starts_none

variable {env : Env} (he : env.InRange)
include he

theorem finds_root (id : ExprId) (feature : Feature) :
    (env.root id feature).Finds fun r => ∀ o ∈ r, env.model.Holds o.any := by
  unfold root
  cases ha : env.aggregate with
  | none => exact (finds_refuse id feature .noRootEntity).mono (by rintro _ rfl; simp)
  | some a =>
    refine (Model.finds_rootEntity he.model (he.aggregate a ha)).lift.bind fun r hr => ?_
    cases r with
    | none => exact (finds_refuse id feature .noRootEntity).mono (by rintro _ rfl; simp)
    | some o => exact .pure hr

theorem finds_objectNamed (name : String) :
    (env.objectNamed name).Finds fun r => ∀ o ∈ r, env.model.Holds o.any := by
  have hall : (Lookup.find? (fun o => return (← env.model.object o).name == name)
      env.model.objectIds).Finds fun r => ∀ o ∈ r, env.model.Holds o.any := by
    refine (Lookup.finds_find? fun o ho => ?_).mono
      fun r hr o ho => Model.holds_of_mem_objectIds (hr o ho)
    exact (Model.finds_object he.model (Model.holds_of_mem_objectIds ho)).bind
      fun _ _ => .pure trivial
  unfold objectNamed
  cases ha : env.aggregate with
  | none => exact hall
  | some a =>
    refine (Model.finds_objectByName he.model (he.aggregate a ha) name).bind fun r hr => ?_
    cases r with
    | none => exact hall
    | some o => exact .pure hr

theorem finds_variableStart (id : ExprId) (name : String) (type : Ty) :
    (env.variableStart id name type).Finds env.Starts := by
  unfold variableStart
  cases type with
  | error => exact .pure env.starts_none
  | collection t => exact .pure (env.starts_terminal _)
  | optional t => exact .pure (env.starts_terminal _)
  | primitive n | entity n =>
    refine (finds_objectNamed he n).lift.bind fun r hr => ?_
    cases r with
    | some o => exact .pure (starts_object (hr o rfl))
    | none =>
      dsimp only
      split
      · exact .pure (env.starts_terminal _)
      · exact env.starts_refuse ..
  | final => exact env.starts_refuse ..
  | null => exact env.starts_refuse ..

/-! ### Queries -/

theorem finds_queryOperation (id : ExprId) (name : String) :
    (env.queryOperation id name).Finds fun r =>
      ∀ p ∈ r, SignatureInRange env.model p.parameters p.returnType := by
  refine (finds_root he id .queryOperation).bind fun r hr => ?_
  cases r with
  | none => exact .pure (by simp)
  | some root =>
    refine (Model.finds_object he.model (hr root rfl)).lift.bind fun n hn => ?_
    cases hrep : n.repository with
    | none => exact (finds_refuse id _ _).mono (by rintro _ rfl; simp)
    | some repository =>
      dsimp only
      cases hfind : repository.operations.find? (·.name == name) with
      | none => exact (finds_refuse id _ _).mono (by rintro _ rfl; simp)
      | some operation =>
        refine .pure ?_
        rintro _ ⟨⟩
        exact hn.queries repository hrep operation (List.mem_of_find?_eq_some hfind)

theorem total_mismatchedParam (scope : Scope) (params : List String) {declared : List Parameter}
    (h : ∀ p ∈ declared, p.type.InRange env.model) :
    (env.mismatchedParam scope params declared).Total := by
  refine (Lookup.finds_find? fun p hp => ?_).bind fun _ _ => .pure trivial
  obtain ⟨⟨param, parameter⟩, i⟩ := p
  have hmem := List.fst_mem_of_mem_zipIdx hp
  have hpar := (List.of_mem_zip hmem).2
  exact (Model.total_complexType he.model (h parameter hpar)).bind fun _ _ => .pure trivial

theorem finds_queryResult {operation : RepositoryOperation}
    (h : ∀ t ∈ operation.returnType, t.InRange env.model) :
    (env.queryResult operation).Finds fun r => ∀ p ∈ r, env.model.Holds p.1.any := by
  unfold queryResult
  split
  · next wrapper o heq =>
    have ho : env.model.Holds o.any := h _ heq o rfl
    refine (Model.finds_object he.model ho).bind fun n _ => ?_
    split
    · refine .pure ?_
      rintro _ ⟨⟩
      exact ho
    · exact .pure (by simp)
  · exact .pure (by simp)

theorem total_isOwn (o : ObjectId) : (env.isOwn o).Total := by
  unfold isOwn
  cases ha : env.aggregate with
  | none => exact .pure trivial
  | some a =>
    exact (Model.finds_aggregate he.model (he.aggregate a ha)).bind fun _ _ => .pure trivial

theorem finds_queryStart (id : ExprId) (name : String) {operation : RepositoryOperation}
    (h : ∀ t ∈ operation.returnType, t.InRange env.model) :
    (env.queryStart id name operation).Finds env.Starts := by
  refine (finds_queryResult he h).lift.bind fun r hr => ?_
  cases r with
  | none => exact env.starts_refuse ..
  | some p =>
    obtain ⟨o, isCollection⟩ := p
    have ho := hr _ rfl
    refine (total_isOwn he o).lift.bind fun own _ => ?_
    split
    · exact (Model.finds_object he.model ho).lift.bind fun _ _ => env.starts_refuse ..
    · split
      · exact (Model.finds_object he.model ho).lift.bind fun _ _ => .pure (env.starts_terminal _)
      · exact .pure (starts_object ho)

theorem finds_query (id : ExprId) (name : String) (params : List String) (scope : Scope) :
    (env.query id name params scope).Finds env.Starts := by
  refine (finds_queryOperation he id name).bind fun r hr => ?_
  cases r with
  | none => exact .pure env.starts_none
  | some operation =>
    have hs := hr operation rfl
    dsimp only
    split
    · exact env.starts_refuse ..
    · split
      · exact env.starts_refuseAt ..
      · refine (total_mismatchedParam he scope params hs.parameters).lift.bind fun bad _ => ?_
        cases bad with
        | some p => exact env.starts_refuseAt ..
        | none => exact finds_queryStart he id name hs.returnType

/-! ### All heads -/

theorem finds_head (id : ExprId) (scope : Scope) (kind : ScopeKind) (head : PathHead) :
    (env.head id scope kind head).Finds env.Starts := by
  cases head with
  | root =>
    rw [Env.head]
    split
    · exact env.starts_refuse ..
    · refine (finds_root he id .headElement).bind fun r hr => .pure ?_
      rintro o h
      obtain ⟨p, hp, ⟨⟩⟩ := Option.map_eq_some_iff.mp h
      exact hr _ hp
  | query operation params =>
    rw [Env.head]
    split
    · exact env.starts_refuse ..
    · exact finds_query he id operation params scope
  | «variable» name =>
    rw [Env.head]
    split
    · exact env.starts_refuse ..
    · split
      · exact env.starts_refuse ..
      · exact finds_variableStart he id name _

/-! ### Operators and ternaries -/

omit he

theorem total_fail (id : ExprId) (f : Feature) (p : Problem) : (fail id f p).Total := ⟨rfl, trivial⟩

theorem total_failAt (id : ExprId) (f : Feature) (i : Nat) (p : Problem) :
    (failAt id f i p).Total :=
  ⟨rfl, trivial⟩

theorem total_expectBoolean (id : ExprId) (f : Feature) (type : Ty) :
    (env.expectBoolean id f type).Total := by
  unfold expectBoolean
  split
  · exact .pure trivial
  · exact (Check.total_report ..).bind fun _ _ => .pure trivial

theorem total_expectNumeric (id : ExprId) (f : Feature) (type : Ty) :
    (expectNumeric id f type).Total := by
  unfold expectNumeric
  split
  · exact Check.total_report ..
  · exact .pure trivial

theorem total_binaryResult (id : ExprId) (left right : Ty) (op : BinaryOp) :
    (env.binaryResult id left right op).Total := by
  have harith : (arithmeticResult id left right).Total :=
    (total_expectNumeric id .left left).bind fun _ _ =>
      (total_expectNumeric id .right right).bind fun _ _ => .pure trivial
  cases op with
  | boolean op =>
    exact (total_expectBoolean id .left left).bind fun _ _ =>
      (total_expectBoolean id .right right).bind fun _ _ => .pure trivial
  | comparison op =>
    rw [binaryResult, comparisonResult]
    split
    · exact .pure trivial
    · split
      · exact .pure trivial
      · exact total_fail ..
  | addition op => exact harith
  | multiplication op => exact harith

theorem total_negationResult (id : ExprId) (operand : Ty) : (env.negationResult id operand).Total :=
  (total_expectBoolean id .operand operand).bind fun _ _ => .pure trivial

theorem total_signedResult (id : ExprId) (operand : Ty) : (signedResult id operand).Total := by
  unfold signedResult
  split
  · exact .pure trivial
  · exact total_fail ..

theorem total_conditionHolds (id : ExprId) (condition : Ty) :
    (conditionHolds id condition).Total := by
  unfold conditionHolds
  split
  · exact .pure trivial
  · split
    · exact .pure trivial
    · exact (Check.total_report ..).bind fun _ _ => .pure trivial

theorem total_ternaryResult (id : ExprId) (thenType elseType : Ty) :
    (env.ternaryResult id thenType elseType).Total := by
  unfold ternaryResult
  split
  · exact .pure trivial
  · cases env.policy with
    | boolean =>
      dsimp only
      split
      · refine (Check.total_report ..).bind fun _ _ => ?_
        split
        · exact (Check.total_report ..).bind fun _ _ => .pure trivial
        · exact .pure trivial
      · split
        · exact (Check.total_report ..).bind fun _ _ => .pure trivial
        · exact .pure trivial
    | matching =>
      dsimp only
      split
      · exact total_fail ..
      · exact .pure trivial

/-! ### Final expressions and paths -/

include he

theorem finds_offendingPosition {root : ObjectId} (hr : env.model.Holds root.any)
    (chain : List String) :
    (env.offendingPosition root chain).Finds fun r => ∀ i ∈ r, i < chain.length := by
  refine (Model.finds_walk he.model hr chain).bind fun r hwalk => ?_
  split
  · next position =>
    refine .pure ?_
    rintro _ ⟨⟩
    exact hwalk position rfl
  · exact .pure (by simp)
  · refine .pure fun i hi => ?_
    cases chain with
    | nil => simp at hi
    | cons property rest =>
      simp only [List.isEmpty_cons, Bool.false_eq_true, if_false, Option.mem_def,
        Option.some.injEq] at hi
      simp only [List.length_cons] at hi ⊢
      omega

theorem total_checkChains (id : ExprId) {root : ObjectId} (hr : env.model.Holds root.any)
    (index : Nat) (chains : List (List String)) : (env.checkChains id root index chains).Total := by
  induction chains generalizing index with
  | nil => exact .pure trivial
  | cons chain chains ih =>
    refine (finds_offendingPosition he hr chain).lift.bind fun r hi => ?_
    cases r with
    | none => exact (ih (index + 1)).bind fun _ _ => .pure trivial
    | some position =>
      refine (Lookup.finds_item (hi position rfl)).lift.bind fun _ _ => ?_
      refine (Check.total_reportAt ..).bind fun _ _ => ?_
      exact (ih (index + 1)).bind fun _ _ => .pure trivial

theorem total_finalResult (id : ExprId) (kind : ScopeKind) (chains : List (List String)) :
    (env.finalResult id kind chains).Total := by
  unfold finalResult
  split
  · exact total_fail ..
  · refine (finds_root he id .finalElements).bind fun r hr => ?_
    cases r with
    | none => exact .pure trivial
    | some root =>
      exact (total_checkChains he id (hr root rfl) 0 chains).bind fun _ _ => .pure trivial

omit he in
theorem total_propertyError (id : ExprId) {properties : List String} {position : Nat}
    (h : position < properties.length) : (propertyError id properties position).Total :=
  (Lookup.finds_item h).lift.bind fun _ _ => total_failAt ..

theorem total_base (id : ExprId) (scope : Scope) (kind : ScopeKind) (head : PathHead)
    (properties : List String) : (env.base id scope kind head properties).Total := by
  refine (finds_head he id scope kind head).bind fun r hstart => ?_
  cases r with
  | none => exact .pure trivial
  | some start =>
    cases start with
    | object o =>
      refine (Model.finds_walk he.model (hstart o rfl) properties).lift.bind fun r hwalk => ?_
      cases r with
      | ok type => exact .pure trivial
      | error position => exact total_propertyError id (hwalk position rfl)
    | terminal type =>
      dsimp only
      split
      · exact .pure trivial
      · next hne =>
        refine total_propertyError id ?_
        rw [List.isEmpty_iff] at hne
        exact List.length_pos_iff.mpr hne

omit he

theorem total_simpleResult (id : ExprId) (index : Nat) (method : SimpleMethod) (type : Ty) :
    (simpleResult id index method type).Total := by
  cases method <;>
    · rw [simpleResult]
      split
      · exact .pure trivial
      · exact total_failAt ..

theorem total_lambdaScope (id : ExprId) (index : Nat) (method : ParametricMethod) (binder : String)
    (type : Ty) (scope : Scope) : (lambdaScope id index method binder type scope).Total := by
  unfold lambdaScope
  split
  · exact (finds_refuseAt ..).total
  · split
    · exact .pure trivial
    · exact (finds_refuseAt ..).total

theorem total_lambdaResult (id : ExprId) (index : Nat) (method : ParametricMethod)
    (type body : Ty) :
    (lambdaResult id index method type body).Total := by
  unfold lambdaResult
  split
  · exact .pure trivial
  · split
    · exact total_failAt ..
    · cases method <;> exact .pure trivial

/-! ### The tree -/

mutual

/-- **In a model in range, inference misses nothing.** -/
theorem total_infer (he : env.InRange) (scope : Scope) (kind : ScopeKind) :
    ∀ e, (env.infer scope kind e).Total
  | ⟨id, .binary op left right⟩ => by
    rw [infer]
    refine (total_infer he scope kind left).bind fun _ _ => ?_
    exact (total_infer he scope kind right).bind fun _ _ => env.total_binaryResult ..
  | ⟨_, .lone _ operand⟩ => by
    rw [infer]
    exact total_infer he scope kind operand
  | ⟨id, .negation operand⟩ => by
    rw [infer]
    exact (total_infer he scope kind operand).bind fun _ _ => env.total_negationResult ..
  | ⟨id, .signed _ operand⟩ => by
    rw [infer]
    exact (total_infer he scope kind operand).bind fun _ _ => total_signedResult ..
  | ⟨id, .ternary condition thenValue elseValue⟩ => by
    rw [infer]
    refine (total_infer he scope kind condition).bind fun _ _ => ?_
    refine (total_conditionHolds ..).bind fun _ _ => ?_
    split
    · refine (total_infer he scope kind thenValue).bind fun _ _ => ?_
      exact (total_infer he scope kind elseValue).bind fun _ _ => env.total_ternaryResult ..
    · exact .pure trivial
  | ⟨id, .final chains⟩ => by
    rw [infer]
    exact total_finalResult he id kind chains
  | ⟨id, .path head properties methods⟩ => by
    rw [infer]
    refine (total_base he id scope kind head properties).bind fun type _ => ?_
    split
    · exact .pure trivial
    · exact total_applyMethods he id scope 0 type methods
  | ⟨_, .parenthesized inner⟩ => by
    rw [infer]
    exact total_infer he scope kind inner
  | ⟨_, .number _⟩ | ⟨_, .string _⟩ | ⟨_, .bool _⟩ | ⟨_, .null⟩ | ⟨_, .now⟩ => by
    rw [infer]
    exact .pure trivial

theorem total_applyMethods (he : env.InRange) (id : ExprId) (scope : Scope) (index : Nat)
    (type : Ty) : ∀ methods, (env.applyMethods id scope index type methods).Total
  | [] => by
    rw [applyMethods]
    exact .pure trivial
  | .simple method :: methods => by
    rw [applyMethods]
    refine (total_simpleResult ..).bind fun next _ => ?_
    split
    · exact .pure trivial
    · exact total_applyMethods he id scope (index + 1) next methods
  | .parametric method binder body :: methods => by
    rw [applyMethods]
    refine (total_lambdaScope ..).bind fun r _ => ?_
    cases r with
    | none => exact .pure trivial
    | some inner =>
      refine (total_infer he inner .methodLocal body).bind fun bodyType _ => ?_
      refine (total_lambdaResult ..).bind fun next _ => ?_
      split
      · exact .pure trivial
      · exact total_applyMethods he id scope (index + 1) next methods

end

end Env

/-- The type of a standalone expression is found, and its environment with it. -/
theorem Model.total_inferType {m : Model} (hm : m.InRange) {aggregate : Option AggregateId}
    (ha : ∀ a ∈ aggregate, m.Holds a.any) (policy : TernaryPolicy) (scope : Scope)
    (kind : ScopeKind) (e : Expr) : (m.inferType aggregate policy scope kind e).Total :=
  (Env.finds_forAggregate hm ha policy).lift.bind fun _ he => Env.total_infer he scope kind e

end DomainModel
