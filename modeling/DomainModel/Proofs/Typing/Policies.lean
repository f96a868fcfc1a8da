import DomainModel.Proofs.Typing.Inherited

/-! # The two rules for ternaries

The rule `boolean` asks both branches of a ternary to be booleans, the rule `matching` only that
they go together. So what is in order under `boolean` should be in order under `matching`, with the
same type (`Model.inferType_matching_of_boolean`). Under `matching` a ternary has the type of a
branch, under `boolean` it is `Boolean` in this spelling, while a branch may be a boolean in any
spelling: the types agree where attributes and variables spell it `Boolean`.

The proof compares two runs. `Check.Relaxes Q c' c` says that where `c` is silent it has a value
with the property `Q`, and `c'` is the same check. Types are followed through both runs by
`Ty.PlainBoolean`. -/

namespace DomainModel

/-- The name is spelled `Boolean` if it is that name up to case. -/
def PlainName (name : String) : Prop := sameName name "Boolean" = true → name = "Boolean"

instance (name : String) : Decidable (PlainName name) :=
  inferInstanceAs (Decidable (sameName name "Boolean" = true → name = "Boolean"))

/-- Booleans in the type are spelled `Boolean`. -/
def Ty.PlainBoolean : Ty → Prop
  | primitive name => PlainName name
  | collection t | optional t => t.PlainBoolean
  | entity _ | final | null | error => True

/-- Booleans in the types of the visible variables are spelled `Boolean`. -/
def Scope.PlainBoolean (s : Scope) : Prop :=
  ∀ name type, s.lookup name = some type → type.PlainBoolean

/-- Booleans among the types of attributes are spelled `Boolean`. -/
def Model.PlainBoolean (m : Model) : Prop := ∀ a ∈ m.attributes, PlainName a.type

instance (m : Model) : Decidable m.PlainBoolean :=
  inferInstanceAs (Decidable (∀ a ∈ m.attributes, PlainName a.type))

/-! ### Two runs of a check -/

namespace Check

variable {α β : Type}

/-- Where the second check is silent, its value has the property and the first is the same check. -/
def Relaxes (Q : α → Prop) (c' c : Check α) : Prop := c.findings = [] → c' = c ∧ Q c.value

theorem Relaxes.refl {Q : α → Prop} {c : Check α} (h : Q c.value) : Relaxes Q c c :=
  fun _ => ⟨rfl, h⟩

theorem Relaxes.bind {Q : α → Prop} {R : β → Prop} {c' c : Check α} {f' f : α → Check β}
    (hc : Relaxes Q c' c) (hf : ∀ a, Q a → Relaxes R (f' a) (f a)) :
    Relaxes R (c' >>= f') (c >>= f) := by
  intro hsilent
  rw [findings_bind, List.append_eq_nil_iff] at hsilent
  obtain ⟨rfl, hvalue⟩ := hc hsilent.1
  obtain ⟨hrest, hresult⟩ := hf c'.value hvalue hsilent.2
  refine ⟨?_, hresult⟩
  ext1
  · rw [value_bind, value_bind, hrest]
  · rw [findings_bind, findings_bind, hrest]
  · rw [misses_bind, misses_bind, hrest]

end Check

open Check (Relaxes)

/-! ### Types -/

namespace Ty

variable {t : Ty}

/-- Where booleans are spelled `Boolean`, there is one type of booleans. -/
theorem eq_boolean_of_isBoolean (h : t.PlainBoolean) (hboolean : t.isBoolean = true) :
    t = boolean := by
  cases t with
  | primitive name => exact congrArg primitive (h hboolean)
  | _ => cases hboolean

/-- The types that the rules give by themselves are spelled as they are listed. -/
theorem inherited_plainBoolean : Ty.Inherited PlainBoolean where
  collection _ := Iff.rfl
  optional _ := Iff.rfl
  builtin := by
    change ∀ name ∈ nullableNames, PlainName name
    decide
  final := trivial
  error := trivial

end Ty

open Ty (inherited_plainBoolean)

theorem Scope.plainBoolean_root {bindings : List (String × Ty)}
    (h : ∀ b ∈ bindings, b.2.PlainBoolean) : (root bindings).PlainBoolean := by
  intro name type hlookup
  obtain ⟨b, hfind, rfl⟩ := Option.map_eq_some_iff.mp hlookup
  exact h b (List.mem_reverse.mp (List.mem_of_find?_eq_some hfind))

/-! ### Models -/

namespace Model

variable {m : Model}

theorem plainName_attributeOf (hm : m.PlainBoolean) (a : AttributeId) :
    PlainName (m.attributeOf a).value.type :=
  Lookup.forall_node (by decide : PlainName "") hm a

theorem supplies_plainBoolean (hm : m.PlainBoolean) : m.Supplies Ty.PlainBoolean where
  object _ := trivial
  attributeOf := plainName_attributeOf hm

end Model

namespace Env

variable (env : Env) {scope : Scope}

/-! ### The rules -/

theorem plainBoolean_boolean : Ty.boolean.PlainBoolean := fun _ => rfl

/-- The environment under another rule for ternaries. -/
def under (policy : TernaryPolicy) : Env := { env with policy := policy }

theorem forAggregate_under (m : Model) (aggregate : Option AggregateId)
    (policy policy' : TernaryPolicy) :
    (forAggregate m aggregate policy').value =
      (forAggregate m aggregate policy).value.under policy' := by
  cases aggregate <;> rfl

theorem model_forAggregate (m : Model) (aggregate : Option AggregateId) (policy : TernaryPolicy) :
    (forAggregate m aggregate policy).value.model = m := by
  cases aggregate <;> rfl

theorem checkChains_under (policy : TernaryPolicy) (id : ExprId) (root : ObjectId) (index : Nat)
    (chains : List (List String)) :
    (env.under policy).checkChains id root index chains =
      env.checkChains id root index chains := by
  induction chains generalizing index with
  | nil => rfl
  | cons chain chains ih =>
    rw [checkChains, checkChains]
    simp only [ih]
    rfl

theorem finalResult_under (policy : TernaryPolicy) (id : ExprId) (kind : ScopeKind)
    (chains : List (List String)) :
    (env.under policy).finalResult id kind chains = env.finalResult id kind chains := by
  unfold finalResult
  simp only [checkChains_under]
  rfl

/-- Booleans go together, and the type of both branches is that of the ternary. -/
theorem relaxes_ternaryResult (id : ExprId) {thenType elseType : Ty} (ht : thenType.PlainBoolean)
    (he : elseType.PlainBoolean) :
    Relaxes Ty.PlainBoolean ((env.under .matching).ternaryResult id thenType elseType)
      ((env.under .boolean).ternaryResult id thenType elseType) := by
  by_cases herror : (thenType.isError || elseType.isError) = true
  · unfold ternaryResult
    rw [if_pos herror, if_pos herror]
    exact .refl trivial
  · unfold ternaryResult
    rw [if_neg herror, if_neg herror]
    -- a branch that is no boolean is reported under `boolean`
    cases hthen : thenType.isBoolean with
    | false =>
      intro hsilent
      simp [under] at hsilent
    | true =>
      cases helse : elseType.isBoolean with
      | false =>
        intro hsilent
        simp [under] at hsilent
      | true =>
        rw [Ty.eq_boolean_of_isBoolean ht hthen, Ty.eq_boolean_of_isBoolean he helse]
        exact .refl plainBoolean_boolean

/-- The steps along a path are each followed by the rest unless their type is `error`. -/
theorem relaxes_unless_error {c' c : Check Ty} (hc : Relaxes Ty.PlainBoolean c' c)
    {f' f : Ty → Check Ty}
    (hf : ∀ type, type.PlainBoolean → Relaxes Ty.PlainBoolean (f' type) (f type)) :
    Relaxes Ty.PlainBoolean (c' >>= fun type => if type.isError then pure .error else f' type)
      (c >>= fun type => if type.isError then pure .error else f type) := by
  refine hc.bind fun type ht => ?_
  split
  · exact .refl trivial
  · exact hf type ht

/-- If the expression is in order under `boolean`, it is so under `matching`, in every scope. -/
def RelaxedAt (e : Expr) : Prop :=
  ∀ (scope : Scope) (kind : ScopeKind), scope.PlainBoolean →
    Relaxes Ty.PlainBoolean ((env.under .matching).infer scope kind e)
      ((env.under .boolean).infer scope kind e)

theorem relaxes_applyMethods (id : ExprId) (hs : scope.PlainBoolean) (index : Nat) {type : Ty}
    (ht : type.PlainBoolean) {methods : List Method}
    (hbodies : ∀ c ∈ Expr.bodies methods, env.RelaxedAt c) :
    Relaxes Ty.PlainBoolean ((env.under .matching).applyMethods id scope index type methods)
      ((env.under .boolean).applyMethods id scope index type methods) := by
  induction methods generalizing index type with
  | nil =>
    rw [applyMethods, applyMethods]
    exact .refl ht
  | cons first rest ih =>
    cases first with
    | simple method =>
      rw [applyMethods, applyMethods]
      refine relaxes_unless_error (.refl ?_) fun next hnext => ih (index + 1) hnext hbodies
      exact inherited_simpleResult inherited_plainBoolean id index method ht
    | parametric method binder body =>
      obtain ⟨hbody, hrest⟩ := List.forall_mem_cons.mp hbodies
      -- the types are the same so far, so both runs enter the lambda with one scope
      have hscope : Relaxes (fun inner => ∀ s ∈ inner, s.PlainBoolean)
          (lambdaScope id index method binder type scope)
          (lambdaScope id index method binder type scope) :=
        .refl fun inner hinner => supplies_lambdaScope inherited_plainBoolean ht hs hinner
      rw [applyMethods, applyMethods]
      refine hscope.bind fun inner hinner => ?_
      cases inner with
      | none => exact .refl trivial
      | some inner =>
        refine (hbody inner .methodLocal (hinner inner rfl)).bind fun bodyType hb => ?_
        refine relaxes_unless_error (.refl ?_) fun next hnext => ih (index + 1) hnext hrest
        exact inherited_lambdaResult inherited_plainBoolean id index method ht hb

/-- **An expression that is in order under `boolean` is so under `matching`.** -/
theorem relaxedAt (hm : env.model.Supplies Ty.PlainBoolean) (e : Expr) : env.RelaxedAt e := by
  induction e using Expr.induction_on_children with
  | h e ih =>
    obtain ⟨id, form⟩ := e
    intro scope kind hs
    have hpart := fun c hc => ih c hc scope kind hs
    cases form with
    | binary op left right =>
      rw [infer, infer]
      refine (hpart left (by simp [Expr.children])).bind fun leftType hl => ?_
      refine (hpart right (by simp [Expr.children])).bind fun rightType _ => ?_
      exact .refl (inherited_binaryResult inherited_plainBoolean id hl rightType op)
    | lone op operand | parenthesized operand =>
      rw [infer, infer]
      exact hpart operand List.mem_cons_self
    | negation operand =>
      rw [infer, infer]
      refine (hpart operand List.mem_cons_self).bind fun type ht => ?_
      exact .refl (inherited_negationResult inherited_plainBoolean id ht)
    | signed op operand =>
      rw [infer, infer]
      refine (hpart operand List.mem_cons_self).bind fun type ht => ?_
      exact .refl (inherited_signedResult inherited_plainBoolean id ht)
    | ternary condition thenValue elseValue =>
      have hholds : ∀ type, Relaxes (fun _ => True) (conditionHolds id type)
          (conditionHolds id type) := fun _ => .refl trivial
      rw [infer, infer]
      refine (hpart condition (by simp [Expr.children])).bind fun conditionType _ => ?_
      refine (hholds conditionType).bind fun holds _ => ?_
      split
      · refine (hpart thenValue (by simp [Expr.children])).bind fun thenType ht => ?_
        refine (hpart elseValue (by simp [Expr.children])).bind fun elseType he => ?_
        exact env.relaxes_ternaryResult id ht he
      · exact .refl trivial
    | path head properties methods =>
      have hbase : Relaxes Ty.PlainBoolean (env.base id scope kind head properties)
          (env.base id scope kind head properties) :=
        .refl (inherited_base inherited_plainBoolean hm hs id kind head properties)
      rw [infer, infer]
      refine relaxes_unless_error hbase fun type ht => ?_
      exact env.relaxes_applyMethods id hs 0 ht ih
    | final chains =>
      rw [infer, infer, finalResult_under, finalResult_under]
      exact .refl (inherited_finalResult inherited_plainBoolean id kind chains)
    | number literal =>
      rw [infer, infer]
      exact .refl (inherited_plainBoolean.literal literal)
    | string value =>
      rw [infer, infer]
      exact .refl (by decide : PlainName "String")
    | bool value =>
      rw [infer, infer]
      exact .refl plainBoolean_boolean
    | null =>
      rw [infer, infer]
      exact .refl trivial
    | now =>
      rw [infer, infer]
      exact .refl (by decide : PlainName "DateTime")

end Env

namespace Model

/-- **The rule `matching` is laxer than the rule `boolean`:** what is in order under `boolean` is in
order under `matching` and has the same type, if booleans are spelled `Boolean` in the attributes of
the model and in the scope. -/
theorem inferType_matching_of_boolean (m : Model) (attributes : m.PlainBoolean)
    (aggregate : Option AggregateId) (scope : Scope) (bound : scope.PlainBoolean)
    (kind : ScopeKind) (e : Expr)
    (silent : (m.inferType aggregate .boolean scope kind e).findings = []) :
    (m.inferType aggregate .matching scope kind e).findings = [] ∧
      (m.inferType aggregate .matching scope kind e).value =
        (m.inferType aggregate .boolean scope kind e).value := by
  have hrun : ∀ policy,
      let env := (Env.forAggregate m aggregate .boolean).value.under policy
      (m.inferType aggregate policy scope kind e).findings = (env.infer scope kind e).findings ∧
        (m.inferType aggregate policy scope kind e).value = (env.infer scope kind e).value := by
    intro policy
    rw [← Env.forAggregate_under]
    exact ⟨rfl, rfl⟩
  rw [(hrun .boolean).1] at silent
  rw [← Env.model_forAggregate m aggregate .boolean] at attributes
  obtain ⟨hsame, _⟩ := Env.relaxedAt _ (supplies_plainBoolean attributes) e scope kind bound silent
  rw [(hrun .matching).1, (hrun .matching).2, (hrun .boolean).2, hsame]
  exact ⟨silent, rfl⟩

/-- `root.lines.allMatch(l -> l.price < limit.get()) ? open : false`. -/
def smallAndOpen : Expr :=
  Expr.ternary (linesBelow "price") (Expr.var "open" []) (Expr.boolean false)

/-- The branches are a variable and a literal, both booleans. -/
theorem inferType_matching_of_boolean_open :
    let scope := Scope.root [("limit", .optional .long), ("open", .boolean)]
    let type := fun policy => orders.inferType (some ⟨0⟩) policy scope .constructorAssignment
      smallAndOpen
    orders.PlainBoolean ∧ scope.PlainBoolean ∧ (type .boolean).findings = [] ∧
      (type .matching).findings = [] ∧ (type .matching).value = (type .boolean).value := by
  intro scope type
  have attributes : orders.PlainBoolean := by decide
  have bound : scope.PlainBoolean := by
    refine Scope.plainBoolean_root ?_
    rw [List.forall_mem_cons, List.forall_mem_singleton]
    exact ⟨(by decide : PlainName "Long"), Env.plainBoolean_boolean⟩
  have silent : (type .boolean).findings = [] := by decide
  exact ⟨attributes, bound, silent, inferType_matching_of_boolean orders attributes (some ⟨0⟩)
    scope bound .constructorAssignment smallAndOpen silent⟩

/-- In another spelling the types differ. -/
example :
    let m := { orders with attributes := [⟨"open", "boolean", ⟨0⟩, false, none⟩] }
    let e := Expr.ternary (Expr.boolean true) (Expr.root ["open"]) (Expr.root ["open"])
    let type := fun policy => m.inferType (some ⟨0⟩) policy .empty .intraInvariant e
    (type .boolean).findings = [] ∧ (type .boolean).value = .primitive "Boolean" ∧
      (type .matching).value = .primitive "boolean" := by
  decide

end Model

end DomainModel
