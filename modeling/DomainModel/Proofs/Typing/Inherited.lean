import DomainModel.Proofs.Typing.Reporting
import DomainModel.Proofs.Typing.Visits

/-! # Properties that inferred types inherit

The type of an expression is put together from the types of variables, from names that the model
gives to objects and attributes, and from the few types that the rules give by themselves. A
property that passes through wrappers and holds of all of these holds of every type that is inferred
(`Env.inherited_infer`), and of the variables in every scope that is entered on the way
(`Env.supplies_of_visits`). The literal `null` has a type of its own, which goes no further than its
comparison with something; so nothing is asked of it in an expression that uses `null` only like
this (`Expr.NullsCompared`). -/

namespace DomainModel

/-- The property passes through wrappers and holds of the types that a rule gives by itself. -/
structure Ty.Inherited (P : Ty → Prop) : Prop where
  collection : ∀ t, P (.collection t) ↔ P t
  optional : ∀ t, P (.optional t) ↔ P t
  builtin : ∀ name ∈ Ty.nullableNames, P (.primitive name)
  final : P .final
  error : P .error

/-- What holds of all nodes of an arena, and of the node that stands for one outside of it. -/
theorem Lookup.forall_node {α : Type} [Inhabited α] {Q : α → Prop} {nodes : List α}
    (hdefault : Q default) (hnodes : ∀ a ∈ nodes, Q a) {arena : Arena} (h : Handle arena) :
    Q (node nodes h).value := by
  unfold node
  cases hfound : nodes[h.index]? with
  | none => exact hdefault
  | some a => exact hnodes a (List.mem_of_getElem? hfound)

/-- The types of objects and attributes have the property. -/
structure Model.Supplies (m : Model) (P : Ty → Prop) : Prop where
  object : ∀ o, P (.entity (m.object o).value.name)
  attributeOf : ∀ a, P (.primitive (m.attributeOf a).value.type)

/-- The types of all visible variables have the property. -/
def Scope.Supplies (s : Scope) (P : Ty → Prop) : Prop :=
  ∀ name type, s.lookup name = some type → P type

/-- A start at a value has a type with the property. -/
def Start.Supplies (P : Ty → Prop) : Start → Prop
  | object _ => True
  | terminal type => P type

namespace Expr

def isNull : Expr → Bool
  | ⟨_, .null⟩ => true
  | _ => false

/-- A comparison of two operands. -/
def isComparison : Expr → Bool
  | ⟨_, .binary (.comparison _) _ _⟩ => true
  | _ => false

/-- Within the expression, `null` is only compared. -/
def NullsCompared (e : Expr) : Prop :=
  ∀ n ∈ e.nodes, n.isComparison = false → ∀ c ∈ n.children, c.isNull = false

instance (e : Expr) : Decidable e.NullsCompared :=
  inferInstanceAs (Decidable
    (∀ n ∈ e.nodes, n.isComparison = false → ∀ c ∈ n.children, c.isNull = false))

theorem NullsCompared.child {e c : Expr} (h : e.NullsCompared) (hc : c ∈ e.children) :
    c.NullsCompared := fun n hn => h n (mem_nodes_of_child hc hn)

theorem NullsCompared.isNull_child {e c : Expr} (h : e.NullsCompared)
    (he : e.isComparison = false) (hc : c ∈ e.children) : c.isNull = false :=
  h e (mem_nodes_self e) he c hc

end Expr

variable {P : Ty → Prop}

namespace Ty.Inherited

variable (hP : Ty.Inherited P) {t : Ty}
include hP

theorem unwrapCollection (h : P t) : P t.unwrapCollection := by
  cases t with
  | collection t => exact (hP.collection t).mp h
  | _ => exact hP.error

theorem unwrapOptional (h : P t) : P t.unwrapOptional := by
  cases t with
  | optional t => exact (hP.optional t).mp h
  | _ => exact hP.error

theorem boolean : P Ty.boolean := hP.builtin "Boolean" (by decide)

theorem literal (literal : String) : P (Literal.type literal) := by
  unfold Literal.type
  split
  · exact hP.builtin "Integer" (by decide)
  · exact hP.builtin "Float" (by decide)

end Ty.Inherited

namespace Env

variable {env : Env} (hP : Ty.Inherited P) {scope : Scope}

/-! ### Heads -/

theorem supplies_variableStart {id : ExprId} {name : String} {type : Ty} {start : Start}
    (ht : P type) (h : (env.variableStart id name type).value = some start) :
    start.Supplies P := by
  unfold variableStart at h
  cases type with
  | error | final | null => cases h
  | collection t | optional t =>
    cases h
    exact ht
  | primitive n | entity n =>
    rw [Check.value_bind] at h
    split at h
    · cases h
      trivial
    · split at h <;> cases h
      exact ht

section

variable (hm : env.model.Supplies P)
include hP hm

theorem supplies_queryStart {id : ExprId} {name : String} {operation : RepositoryOperation}
    {start : Start} (h : (env.queryStart id name operation).value = some start) :
    start.Supplies P := by
  unfold queryStart at h
  simp only [Check.value_bind] at h
  split at h
  · cases h
  · next o _ _ =>
    rw [Check.value_bind] at h
    split at h
    · cases h
    · split at h <;> cases h
      · exact (hP.collection _).mpr (hm.object o)
      · trivial

theorem supplies_query {id : ExprId} {name : String} {params : List String} {start : Start}
    (h : (env.query id name params scope).value = some start) : start.Supplies P := by
  unfold query at h
  rw [Check.value_bind] at h
  split at h
  · cases h
  · split at h
    · cases h
    · split at h
      · cases h
      · rw [Check.value_bind] at h
        split at h
        · cases h
        · exact supplies_queryStart hP hm h

theorem supplies_head {id : ExprId} {kind : ScopeKind} {start : Start} (hs : scope.Supplies P)
    {head : PathHead} (h : (env.head id scope kind head).value = some start) :
    start.Supplies P := by
  cases head with
  | root =>
    rw [Env.head] at h
    split at h
    · cases h
    · obtain ⟨o, _, rfl⟩ := Option.map_eq_some_iff.mp h
      trivial
  | query operation params =>
    rw [Env.head] at h
    split at h
    · cases h
    · exact supplies_query hP hm h
  | «variable» name =>
    rw [Env.head] at h
    split at h
    · cases h
    · split at h
      · cases h
      · next type hlookup => exact supplies_variableStart (hs name type hlookup) h

theorem inherited_base (hs : scope.Supplies P) (id : ExprId) (kind : ScopeKind) (head : PathHead)
    (properties : List String) : P (env.base id scope kind head properties).value := by
  unfold base
  rw [Check.value_bind]
  split
  · exact hP.error
  · rw [Check.value_bind]
    split
    · next type hwalk =>
      exact env.model.type_of_walkFrom (fun o => (hP.collection _).mpr (hm.object o)) hm.attributeOf
        hm.object hwalk
    · exact hP.error
  · next type hhead =>
    split
    · exact supplies_head hP hm hs hhead
    · exact hP.error

end

/-! ### Operators -/

section

include hP

theorem inherited_comparisonResult (id : ExprId) (left right : Ty) :
    P (env.comparisonResult id left right).value := by
  unfold comparisonResult
  split
  · exact hP.error
  · split
    · exact hP.boolean
    · exact hP.error

theorem inherited_binaryResult (id : ExprId) {left : Ty} (hl : P left) (right : Ty)
    (op : BinaryOp) : P (env.binaryResult id left right op).value := by
  cases op with
  | boolean op =>
    change P (if _ then Ty.boolean else Ty.error)
    split
    · exact hP.boolean
    · exact hP.error
  | comparison op => exact inherited_comparisonResult hP id left right
  | addition op | multiplication op =>
    change P (if _ then left else Ty.error)
    split
    · exact hl
    · exact hP.error

theorem inherited_negationResult (id : ExprId) {operand : Ty} (h : P operand) :
    P (env.negationResult id operand).value := by
  change P (if _ then operand else Ty.error)
  split
  · exact h
  · exact hP.error

theorem inherited_signedResult (id : ExprId) {operand : Ty} (h : P operand) :
    P (signedResult id operand).value := by
  unfold signedResult
  split
  · exact h
  · exact hP.error

theorem inherited_ternaryResult (id : ExprId) {thenType elseType : Ty} (ht : P thenType)
    (he : P elseType) : P (env.ternaryResult id thenType elseType).value := by
  unfold ternaryResult
  split
  · exact hP.error
  · cases env.policy with
    | boolean =>
      dsimp only
      cases thenType.isBoolean <;> cases elseType.isBoolean
      · exact hP.error
      · exact hP.error
      · exact hP.error
      · exact hP.boolean
    | matching =>
      dsimp only
      split
      · exact hP.error
      · change P (if thenType = .null then elseType else thenType)
        split
        · exact he
        · exact ht

theorem inherited_finalResult (id : ExprId) (kind : ScopeKind) (chains : List (List String)) :
    P (env.finalResult id kind chains).value := by
  unfold finalResult
  split
  · exact hP.error
  · rw [Check.value_bind]
    split
    · exact hP.error
    · change P (if _ then Ty.final else Ty.error)
      split
      · exact hP.final
      · exact hP.error

/-! ### Methods -/

theorem inherited_simpleResult (id : ExprId) (index : Nat) (method : SimpleMethod) {type : Ty}
    (h : P type) : P (simpleResult id index method type).value := by
  cases method with
  | count =>
    rw [simpleResult]
    split
    · exact hP.builtin "Long" (by decide)
    · exact hP.error
  | distinct =>
    rw [simpleResult]
    split
    · exact h
    · exact hP.error
  | findAny | findFirst =>
    rw [simpleResult]
    split
    · exact (hP.optional _).mpr (hP.unwrapCollection h)
    · exact hP.error
  | isEmpty =>
    rw [simpleResult]
    split
    · exact hP.boolean
    · exact hP.error
  | get =>
    rw [simpleResult]
    split
    · exact hP.unwrapOptional h
    · exact hP.error

theorem inherited_lambdaResult (id : ExprId) (index : Nat) (method : ParametricMethod)
    {type body : Ty} (ht : P type) (hb : P body) :
    P (lambdaResult id index method type body).value := by
  unfold lambdaResult
  split
  · exact hP.error
  · split
    · exact hP.error
    · cases method with
      | allMatch | anyMatch | noneMatch => exact hP.boolean
      | filter => exact ht
      | map => exact (hP.collection body).mpr hb
      | flatMap => exact hb

theorem supplies_lambdaScope {id : ExprId} {index : Nat} {method : ParametricMethod}
    {binder : String} {type : Ty} {inner : Scope} (ht : P type) (hs : scope.Supplies P)
    (h : (lambdaScope id index method binder type scope).value = some inner) :
    inner.Supplies P := by
  rw [(lambdaScope_eq_some h).2]
  exact Scope.forall_lookup_child hs (hP.unwrapCollection ht)

/-! ### The tree -/

/-- Along a chain of methods types and scopes keep the property if the lambda bodies have it. -/
theorem inherited_methodRule (id : ExprId) (index : Nat) {type : Ty} {methods : List Method}
    (hs : scope.Supplies P) (ht : P type)
    (hbodies : ∀ body ∈ Expr.bodies methods, ∀ inner : Scope, inner.Supplies P →
      P (env.infer inner .methodLocal body).value) :
    P (env.methodRule id scope index type methods).value ∧
      ∀ v ∈ env.methodVisits id scope index type methods, v.scope.Supplies P := by
  induction methods generalizing index type with
  | nil => exact ⟨ht, fun v hv => by cases hv⟩
  | cons first rest ih =>
    cases first with
    | simple method =>
      have hnext := inherited_simpleResult hP id index method ht
      obtain ⟨hvalue, hvisits⟩ := ih (index + 1) hnext hbodies
      rw [methodRule, Check.value_bind, methodVisits]
      refine ⟨?_, fun v hv => hvisits v (mem_unless_error hv).2⟩
      split
      · exact hP.error
      · exact hvalue
    | parametric method binder body =>
      obtain ⟨hbody, hrest⟩ := List.forall_mem_cons.mp hbodies
      rw [methodRule, Check.value_bind, methodVisits]
      cases hinner : (lambdaScope id index method binder type scope).value with
      | none => exact ⟨hP.error, fun v hv => by cases hv⟩
      | some inner =>
        have hi := supplies_lambdaScope hP ht hs hinner
        have hnext := inherited_lambdaResult hP id index method ht (hbody inner hi)
        obtain ⟨hvalue, hvisits⟩ := ih (index + 1) hnext hrest
        dsimp only
        rw [Check.value_bind]
        constructor
        · split
          · exact hP.error
          · exact hvalue
        · intro v hv
          rcases List.mem_cons.mp hv with rfl | hv
          · exact hi
          · exact hvisits v (mem_unless_error hv).2

variable (hm : env.model.Supplies P)
include hm

/-- **An inferred type has the property,** if the types of the variables have it and `null` is only
compared. -/
theorem inherited_infer {kind : ScopeKind} {e : Expr} (hs : scope.Supplies P)
    (hnull : e.isNull = false) (hcompared : e.NullsCompared) :
    P (env.infer scope kind e).value := by
  induction e using Expr.induction_on_children generalizing scope kind with
  | h e ih =>
    have hpart : e.isComparison = false → ∀ c ∈ e.children, ∀ (inner : Scope) (place : ScopeKind),
        inner.Supplies P → P (env.infer inner place c).value := by
      intro he c hc inner place hi
      exact ih c hc hi (hcompared.isNull_child he hc) (hcompared.child hc)
    obtain ⟨id, form⟩ := e
    rw [value_infer]
    cases form with
    | binary op left right =>
      rw [rule]
      cases op with
      | comparison op => exact inherited_comparisonResult hP id _ _
      | boolean op | addition op | multiplication op =>
        have hl := hpart rfl left (by simp [Expr.children]) scope kind hs
        exact inherited_binaryResult hP id hl _ _
    | lone op operand | parenthesized operand =>
      exact hpart rfl operand List.mem_cons_self scope kind hs
    | negation operand =>
      exact inherited_negationResult hP id (hpart rfl operand List.mem_cons_self scope kind hs)
    | signed op operand =>
      exact inherited_signedResult hP id (hpart rfl operand List.mem_cons_self scope kind hs)
    | ternary condition thenValue elseValue =>
      rw [rule, Check.value_bind]
      split
      · refine inherited_ternaryResult hP id ?_ ?_
        · exact hpart rfl thenValue (by simp [Expr.children]) scope kind hs
        · exact hpart rfl elseValue (by simp [Expr.children]) scope kind hs
      · exact hP.error
    | path head properties methods =>
      rw [rule, Check.value_bind]
      split
      · exact hP.error
      · have hbase := inherited_base hP hm hs id kind head properties
        have hbodies := fun c hc inner => hpart rfl c hc inner .methodLocal
        exact (inherited_methodRule hP id 0 hs hbase hbodies).1
    | final chains => exact inherited_finalResult hP id kind chains
    | number literal => exact hP.literal literal
    | string value => exact hP.builtin "String" (by decide)
    | bool value => exact hP.boolean
    | null => cases hnull
    | now => exact hP.builtin "DateTime" (by decide)

/-- The variables of the scopes that are entered have types with the property. -/
theorem supplies_of_visits {kind : ScopeKind} {e : Expr} (hs : scope.Supplies P)
    (hcompared : e.NullsCompared) {v : Visit} (hv : v ∈ env.visits scope kind e) :
    v.scope.Supplies P := by
  obtain ⟨id, form⟩ := e
  cases form with
  | path head properties methods =>
    rw [visits] at hv
    have hbase := inherited_base hP hm hs id kind head properties
    have hbodies : ∀ c ∈ Expr.bodies methods, ∀ inner : Scope, inner.Supplies P →
        P (env.infer inner .methodLocal c).value := by
      intro c hc inner hi
      exact inherited_infer hP hm hi (hcompared.isNull_child rfl hc) (hcompared.child hc)
    exact (inherited_methodRule hP id 0 hs hbase hbodies).2 v (mem_unless_error hv).2
  | binary op left right =>
    rcases List.mem_pair.mp hv with rfl | rfl <;> exact hs
  | lone op operand | negation operand | signed op operand | parenthesized operand =>
    rw [List.mem_singleton.mp hv]
    exact hs
  | ternary condition thenValue elseValue =>
    rcases List.mem_cons.mp hv with rfl | hv
    · exact hs
    · split at hv
      · rcases List.mem_pair.mp hv with rfl | rfl <;> exact hs
      · cases hv
  | final | number | string | bool | null | now => cases hv

end

end Env

end DomainModel
