import Mathlib.Data.List.Find
import DomainModel.Proofs.Typing.Names

/-! # What inference depends on

Of its environment an expression only sees what some look-ups find (`Env.Agrees`), of its scope only
the variables whose names occur in it (`Scope.Renames`), and the numbers of its nodes are nothing
but the places of its findings (`Expr.renumbered`). The names of variables themselves only matter in
so far as they are equal or not, and are quoted in some problems (`Expr.renamed`). So an expression
has one type in environments and scopes that agree, under any numbers and names, and the same
findings at the new places with the new names: `Env.follows_infer_renamed` says all this at once.

The proof compares two runs. `c'.Follows g c` says that `c'` has the value of `c`, and the findings
of `c` translated by `g`. -/

namespace DomainModel

/-! ### Two runs of a check -/

namespace Check

variable {α β : Type} {g : Finding → Finding}

/-- The first check has the value of the second, and its findings translated by `g`. -/
structure Follows (g : Finding → Finding) (c' c : Check α) : Prop where
  value : c'.value = c.value
  findings : c'.findings = c.findings.map g

theorem follows_pure (a : α) : (pure a : Check α).Follows g (pure a) := ⟨rfl, rfl⟩

/-- A check in front that has one value in both runs. -/
theorem Follows.bind_value {c' c : Check α} {f' f : α → Check β} (hc : c'.Follows g c)
    (hf : (f' c.value).Follows g (f c.value)) : (c' >>= f').Follows g (c >>= f) := by
  constructor
  · rw [value_bind, value_bind, hc.value, hf.value]
  · rw [findings_bind, findings_bind, hc.value, hc.findings, hf.findings, List.map_append]

theorem Follows.bind {c' c : Check α} {f' f : α → Check β} (hc : c'.Follows g c)
    (hf : ∀ a, (f' a).Follows g (f a)) : (c' >>= f').Follows g (c >>= f) :=
  hc.bind_value (hf c.value)

/-- Look-ups in front report nothing. -/
theorem follows_behind {x' x : Lookup α} {f' f : α → Check β}
    (h : (f' x'.value).Follows g (f x.value)) :
    ((liftM x' : Check α) >>= f').Follows g ((liftM x : Check α) >>= f) :=
  ⟨h.value, h.findings⟩

/-- Look-ups in front that find the same. -/
theorem follows_lift_bind {x' x : Lookup α} {f' f : α → Check β} (hx : x'.value = x.value)
    (hf : ∀ a, (f' a).Follows g (f a)) :
    ((liftM x' : Check α) >>= f').Follows g ((liftM x : Check α) >>= f) :=
  Follows.bind ⟨hx, rfl⟩ hf

/-- A check in front of the first run that keeps silent. -/
theorem Follows.after_silent {c' : Check α} {f' : α → Check β} {c : Check β}
    (hsilent : c'.findings = []) (h : (f' c'.value).Follows g c) : (c' >>= f').Follows g c := by
  refine ⟨h.value, ?_⟩
  rw [findings_bind, hsilent, List.nil_append, h.findings]

theorem follows_report {problem' problem : Problem} {node' node : NodeRef}
    {feature' feature : Feature}
    (h : g ⟨problem, node, feature, none⟩ = ⟨problem', node', feature', none⟩) :
    (report problem' node' feature').Follows g (report problem node feature) :=
  ⟨rfl, congrArg ([·]) h.symm⟩

theorem follows_reportAt {problem' problem : Problem} {node' node : NodeRef}
    {feature' feature : Feature} {index : Nat}
    (h : g ⟨problem, node, feature, some index⟩ = ⟨problem', node', feature', some index⟩) :
    (reportAt problem' node' feature' index).Follows g (reportAt problem node feature index) :=
  ⟨rfl, congrArg ([·]) h.symm⟩

theorem Follows.ite {c' c : Check Unit} (hc : c'.Follows g c) (b : Prop) [Decidable b] :
    (if b then c' else pure ()).Follows g (if b then c else pure ()) := by
  split
  · exact hc
  · exact follows_pure ()

theorem Follows.ite_bind {c' c : Check Unit} {f' f : Unit → Check α} (hc : c'.Follows g c)
    (hf : ∀ r, (f' r).Follows g (f r)) (b : Prop) [Decidable b] :
    (if b then c' >>= f' else f' ()).Follows g (if b then c >>= f else f ()) := by
  split
  · exact hc.bind hf
  · exact hf ()

/-- The items of one list, and what they are mapped to. -/
theorem follows_each_map {f' : β → Check Unit} {f : α → Check Unit} {as : List α} {k : α → β}
    (h : ∀ a ∈ as, (f' (k a)).Follows g (f a)) : (each f' (as.map k)).Follows g (each f as) := by
  induction as with
  | nil => exact follows_pure ()
  | cons a as ih =>
    refine (h a List.mem_cons_self).bind fun _ => ih fun b hb => ?_
    exact h b (List.mem_cons_of_mem a hb)

theorem follows_each {f' f : α → Check Unit} {as : List α}
    (h : ∀ a ∈ as, (f' a).Follows g (f a)) : (each f' as).Follows g (each f as) := by
  simpa using follows_each_map (k := id) h

theorem follows_eachIdx {f' f : α → Nat → Check Unit} {as : List α}
    (h : ∀ a ∈ as, ∀ i, (f' a i).Follows g (f a i)) :
    (eachIdx f' as).Follows g (eachIdx f as) :=
  follows_each fun p hp => h p.1 (List.fst_mem_of_mem_zipIdx hp) p.2

end Check

/-! ### Models -/

/-- What expressions see of a model is found alike in both models. -/
structure Model.Agrees (m' m : Model) : Prop where
  ids : m'.objectIds = m.objectIds
  name : ∀ o, (m'.object o).value.name = (m.object o).value.name
  isEntity : ∀ o, (m'.object o).value.isEntity = (m.object o).value.isEntity
  repository : ∀ o, (m'.object o).value.repository = (m.object o).value.repository
  rootEntity : ∀ a, (m'.rootEntity a).value = (m.rootEntity a).value
  objectByName : ∀ a name, (m'.objectByName a name).value = (m.objectByName a name).value
  lists : ∀ a o,
    (m'.aggregate a).value.objects.contains o = (m.aggregate a).value.objects.contains o
  entityName : ∀ a name,
    (m'.entityNames a).value.contains name = (m.entityNames a).value.contains name
  walk : ∀ o properties, (m'.walk o properties).value = (m.walk o properties).value

theorem Model.Agrees.refl (m : Model) : m.Agrees m :=
  ⟨rfl, fun _ => rfl, fun _ => rfl, fun _ => rfl, fun _ => rfl, fun _ _ => rfl, fun _ _ => rfl,
    fun _ _ => rfl, fun _ _ => rfl⟩

namespace Model

/-- What a single step of a walk sees of a model is found alike in both models. -/
structure StepsAlike (m' m : Model) : Prop where
  name : ∀ o, (m'.object o).value.name = (m.object o).value.name
  propertyOwner : ∀ o, (m'.propertyOwner o).value = (m.propertyOwner o).value
  attributeByName : ∀ o name,
    (m'.attributeByName o name).value = (m.attributeByName o name).value
  referenceByName : ∀ o name,
    (m'.referenceByName o name).value = (m.referenceByName o name).value
  attributeOf : ∀ b, (m'.attributeOf b).value = (m.attributeOf b).value
  reference : ∀ r, (m'.reference r).value = (m.reference r).value

variable {m' m : Model}

theorem StepsAlike.step (h : m'.StepsAlike m) (o : ObjectId) (property : String) :
    (m'.step o property).value = (m.step o property).value := by
  unfold Model.step
  rw [Lookup.value_bind, Lookup.value_bind, h.propertyOwner, Lookup.value_bind, Lookup.value_bind,
    h.referenceByName]
  cases (m.referenceByName (m.propertyOwner o).value property).value with
  | none =>
    rw [Lookup.value_bind, Lookup.value_bind, h.attributeByName]
    cases (m.attributeByName (m.propertyOwner o).value property).value with
    | none => rfl
    | some b => rw [Lookup.value_bind, Lookup.value_bind, h.attributeOf]
  | some r =>
    rw [Lookup.value_bind, Lookup.value_bind, h.reference]
    cases (m.reference r).value.target with
    | none => rfl
    | some target =>
      dsimp only
      split
      · rw [Lookup.value_bind, Lookup.value_bind, h.name]
      · rfl

/-- Where steps lead to the same, walks do. -/
theorem StepsAlike.walkFrom (h : m'.StepsAlike m) (position : Nat) (o : ObjectId)
    (properties : List String) :
    (m'.walkFrom position o properties).value = (m.walkFrom position o properties).value := by
  induction properties generalizing position o with
  | nil => rw [Model.walkFrom, Model.walkFrom, Lookup.value_bind, Lookup.value_bind, h.name]
  | cons property rest ih =>
    rw [Model.walkFrom, Model.walkFrom, Lookup.value_bind, Lookup.value_bind, h.step]
    cases (m.step o property).value with
    | object target => exact ih (position + 1) target
    | terminal type => rfl
    | nowhere => rfl

end Model

/-- **What expressions see of an environment** is found alike in both environments. -/
structure Env.Agrees (env' env : Env) : Prop where
  model : env'.model.Agrees env.model
  aggregate : env'.aggregate = env.aggregate
  entityName : ∀ name, env'.entityNames.contains name = env.entityNames.contains name
  policy : env'.policy = env.policy

theorem Env.Agrees.refl (env : Env) : env.Agrees env := ⟨.refl env.model, rfl, fun _ => rfl, rfl⟩

theorem Ty.compatible_congr {names' names : List String}
    (h : ∀ name, names'.contains name = names.contains name) (a b : Ty) :
    compatible names' a b = compatible names a b := by
  have haccepts : ∀ t : Ty, t.acceptsNull names' = t.acceptsNull names := by
    intro t
    cases t with
    | primitive n | entity n => rw [acceptsNull, acceptsNull, h]
    | _ => rfl
  fun_induction compatible names a b with
  | _ => simp_all [compatible]

theorem Env.agrees_forAggregate {m' m : Model} (h : m'.Agrees m) (aggregate : Option AggregateId)
    (policy : TernaryPolicy) :
    (forAggregate m' aggregate policy).value.Agrees (forAggregate m aggregate policy).value := by
  cases aggregate with
  | none => exact ⟨h, rfl, fun _ => rfl, rfl⟩
  | some a => exact ⟨h, rfl, h.entityName a, rfl⟩

/-! ### Look-ups -/

theorem ComplexType.value_type_congr {m' m : Model} (h : m'.Agrees m) (t : ComplexType) :
    (t.type m').value = (t.type m).value := by
  unfold type
  cases t.target with
  | primitive name => rfl
  | domainObject target =>
    cases target with
    | none => rfl
    | some o =>
      simp only [Lookup.value_bind, Lookup.value_pure]
      rw [h.name]

namespace Env

variable {env' env : Env} {s' s : Scope} {f : ExprId → ExprId} {r : String → String}
  {g : Finding → Finding}

theorem Agrees.compatible (h : env'.Agrees env) (a b : Ty) :
    env'.compatible a b = env.compatible a b :=
  Ty.compatible_congr h.entityName a b

theorem Agrees.objectNamed (h : env'.Agrees env) (name : String) :
    (env'.objectNamed name).value = (env.objectNamed name).value := by
  have hany :
      (Lookup.find? (fun o => return (← env'.model.object o).name == name)
        env'.model.objectIds).value =
      (Lookup.find? (fun o => return (← env.model.object o).name == name)
        env.model.objectIds).value := by
    simp only [Lookup.value_find?, Lookup.value_bind, Lookup.value_pure, h.model.ids, h.model.name]
  unfold Env.objectNamed
  rw [h.aggregate]
  cases env.aggregate with
  | none => exact hany
  | some a =>
    rw [Lookup.value_bind, Lookup.value_bind, h.model.objectByName]
    cases (env.model.objectByName a name).value with
    | some o => rfl
    | none => exact hany

theorem Agrees.isOwn (h : env'.Agrees env) (o : ObjectId) :
    (env'.isOwn o).value = (env.isOwn o).value := by
  unfold Env.isOwn
  rw [h.aggregate]
  cases env.aggregate with
  | none => rfl
  | some a => exact h.model.lists a o

theorem Agrees.queryResult (h : env'.Agrees env) (operation : RepositoryOperation) :
    (env'.queryResult operation).value = (env.queryResult operation).value := by
  unfold Env.queryResult
  split
  · rw [Lookup.value_bind, Lookup.value_bind, h.model.isEntity]
  · rfl

theorem Agrees.offendingPosition (h : env'.Agrees env) (root : ObjectId) (chain : List String) :
    (env'.offendingPosition root chain).value = (env.offendingPosition root chain).value := by
  unfold Env.offendingPosition
  rw [Lookup.value_bind, Lookup.value_bind, h.model.walk]

theorem Agrees.mismatchedParam (h : env'.Agrees env) {params : List String}
    (hs : Scope.Renames r params s' s) (declared : List Parameter) :
    (env'.mismatchedParam s' (params.map r) declared).value =
      (env.mismatchedParam s params declared).value.map (Prod.map r id) := by
  unfold Env.mismatchedParam
  simp only [Lookup.value_bind, Lookup.value_pure, Lookup.value_find?,
    ComplexType.value_type_congr h.model, List.zip_map_left, List.zipIdx_map, List.find?_map,
    Option.map_map]
  refine congrArg (Option.map _) (List.find?_congr fun p hp => ?_)
  obtain ⟨⟨param, parameter⟩, i⟩ := p
  simp only [Function.comp_apply, Prod.map_apply, id]
  rw [hs.lookup param (List.of_mem_zip (List.fst_mem_of_mem_zipIdx hp)).1]

theorem undeclaredParam_renames {params : List String} (hs : Scope.Renames r params s' s) :
    undeclaredParam s' (params.map r) = (undeclaredParam s params).map (Prod.map r id) := by
  unfold undeclaredParam Scope.isDeclared
  rw [List.zipIdx_map, List.find?_map]
  refine congrArg (Option.map _) (List.find?_congr fun p hp => ?_)
  obtain ⟨param, i⟩ := p
  simp only [Function.comp_apply, Prod.map_apply, id,
    hs.lookup param (List.fst_mem_of_mem_zipIdx hp)]

/-! ### Heads -/

/-- Findings in expressions are moved to the new numbers. -/
def Renumbers (f : ExprId → ExprId) (g : Finding → Finding) : Prop :=
  ∀ problem id feature index,
    g ⟨problem, .expr id, feature, index⟩ = ⟨problem, .expr (f id), feature, index⟩

/-- Findings in expressions are moved to the new numbers and quote the new names. -/
def Relabels (f : ExprId → ExprId) (r : String → String) (g : Finding → Finding) : Prop :=
  ∀ problem id feature index,
    g ⟨problem, .expr id, feature, index⟩ = ⟨problem.renamed r, .expr (f id), feature, index⟩

theorem Renumbers.relabels (hg : Renumbers f g) : Relabels f id g := by
  intro problem _ _ _
  rw [hg, problem.renamed_id]

open Check (Follows follows_pure follows_behind follows_lift_bind follows_report follows_reportAt)

section

variable {α : Type} {id' id : ExprId} {feature : Feature} {problem' problem : Problem}

theorem follows_refuse
    (h : g ⟨problem, .expr id, feature, none⟩ = ⟨problem', .expr id', feature, none⟩) :
    (refuse id' feature problem' : Check (Option α)).Follows g (refuse id feature problem) :=
  (follows_report h).bind fun _ => follows_pure none

theorem follows_refuseAt {index : Nat}
    (h : g ⟨problem, .expr id, feature, some index⟩ =
      ⟨problem', .expr id', feature, some index⟩) :
    (refuseAt id' feature index problem' : Check (Option α)).Follows g
      (refuseAt id feature index problem) :=
  (follows_reportAt h).bind fun _ => follows_pure none

theorem follows_fail
    (h : g ⟨problem, .expr id, feature, none⟩ = ⟨problem', .expr id', feature, none⟩) :
    (fail id' feature problem').Follows g (fail id feature problem) :=
  (follows_report h).bind fun _ => follows_pure Ty.error

theorem follows_failAt {index : Nat}
    (h : g ⟨problem, .expr id, feature, some index⟩ =
      ⟨problem', .expr id', feature, some index⟩) :
    (failAt id' feature index problem').Follows g (failAt id feature index problem) :=
  (follows_reportAt h).bind fun _ => follows_pure Ty.error

end

theorem follows_root (hg : Relabels f r g) (h : env'.Agrees env) (id : ExprId)
    (feature : Feature) : (env'.root (f id) feature).Follows g (env.root id feature) := by
  unfold root
  rw [h.aggregate]
  cases env.aggregate with
  | none => exact follows_refuse (hg ..)
  | some a =>
    refine follows_lift_bind (h.model.rootEntity a) fun found => ?_
    cases found with
    | none => exact follows_refuse (hg ..)
    | some o => exact follows_pure _

theorem follows_variableStart (hg : Relabels f r g) (h : env'.Agrees env) (id : ExprId)
    (name : String) (type : Ty) :
    (env'.variableStart (f id) (r name) type).Follows g (env.variableStart id name type) := by
  unfold variableStart
  cases type with
  | error => exact follows_pure _
  | collection t | optional t => exact follows_pure _
  | primitive n | entity n =>
    refine follows_lift_bind (h.objectNamed n) fun found => ?_
    cases found with
    | some o => exact follows_pure _
    | none =>
      dsimp only
      split
      · exact follows_pure _
      · exact follows_refuse (hg ..)
  | final | null => exact follows_refuse (hg ..)

theorem follows_queryStart (hg : Relabels f r g) (h : env'.Agrees env) (id : ExprId)
    (name : String) (operation : RepositoryOperation) :
    (env'.queryStart (f id) name operation).Follows g (env.queryStart id name operation) := by
  refine follows_lift_bind (h.queryResult operation) fun result => ?_
  cases result with
  | none => exact follows_refuse (hg ..)
  | some result =>
    obtain ⟨o, isCollection⟩ := result
    refine follows_lift_bind (h.isOwn o) fun own => ?_
    cases own with
    | false =>
      refine follows_behind ?_
      rw [h.model.name]
      exact follows_refuse (hg ..)
    | true =>
      cases isCollection with
      | true =>
        refine follows_behind ?_
        rw [h.model.name]
        exact follows_pure _
      | false => exact follows_pure _

theorem follows_queryOperation (hg : Relabels f r g) (h : env'.Agrees env) (id : ExprId)
    (name : String) :
    (env'.queryOperation (f id) name).Follows g (env.queryOperation id name) := by
  refine (follows_root hg h id .queryOperation).bind fun root => ?_
  cases root with
  | none => exact follows_pure _
  | some root =>
    refine follows_behind ?_
    rw [h.model.repository]
    split
    · exact follows_refuse (hg ..)
    · split
      · exact follows_refuse (hg ..)
      · exact follows_pure _

theorem follows_query (hg : Relabels f r g) (h : env'.Agrees env) (id : ExprId) (name : String)
    {params : List String} (hs : Scope.Renames r params s' s) :
    (env'.query (f id) name (params.map r) s').Follows g (env.query id name params s) := by
  refine (follows_queryOperation hg h id name).bind fun operation => ?_
  cases operation with
  | none => exact follows_pure _
  | some operation =>
    dsimp only
    rw [List.length_map, undeclaredParam_renames hs]
    split
    · exact follows_refuse (hg ..)
    · cases undeclaredParam s params with
      | some found => exact follows_refuseAt (hg ..)
      | none =>
        refine follows_behind ?_
        rw [h.mismatchedParam hs]
        cases (env.mismatchedParam s params operation.parameters).value with
        | some found => exact follows_refuseAt (hg ..)
        | none => exact follows_queryStart hg h id name operation

theorem follows_head (hg : Relabels f r g) (h : env'.Agrees env) (id : ExprId) {head : PathHead}
    (hs : Scope.Renames r head.names s' s) (kind : ScopeKind) :
    (env'.head (f id) s' kind (head.renamed r)).Follows g (env.head id s kind head) := by
  cases head with
  | root =>
    rw [PathHead.renamed, Env.head, Env.head]
    split
    · cases kind <;> exact follows_refuse (hg ..)
    · exact (follows_root hg h id .headElement).bind fun _ => follows_pure _
  | query operation params =>
    rw [PathHead.renamed, Env.head, Env.head]
    split
    · cases kind <;> exact follows_refuse (hg ..)
    · exact follows_query hg h id operation hs
  | «variable» name =>
    rw [PathHead.renamed, Env.head, Env.head, hs.lookup name List.mem_cons_self]
    split
    · exact follows_refuse (hg ..)
    · split
      · cases kind <;> exact follows_refuse (hg ..)
      · exact follows_variableStart hg h id name _

theorem follows_propertyError (hg : Relabels f r g) (id : ExprId) (properties : List String)
    (position : Nat) :
    (propertyError (f id) properties position).Follows g (propertyError id properties position) :=
  follows_lift_bind rfl fun _ => follows_failAt (hg ..)

theorem follows_base (hg : Relabels f r g) (h : env'.Agrees env) (id : ExprId) {head : PathHead}
    (hs : Scope.Renames r head.names s' s) (kind : ScopeKind) (properties : List String) :
    (env'.base (f id) s' kind (head.renamed r) properties).Follows g
      (env.base id s kind head properties) := by
  refine (follows_head hg h id hs kind).bind fun start => ?_
  cases start with
  | none => exact follows_pure _
  | some start =>
    cases start with
    | object o =>
      refine follows_lift_bind (h.model.walk o properties) fun result => ?_
      cases result with
      | ok type => exact follows_pure _
      | error position => exact follows_propertyError hg ..
    | terminal type =>
      dsimp only
      split
      · exact follows_pure _
      · exact follows_propertyError hg ..

/-! ### Operators -/

theorem follows_expectBoolean (hg : Relabels f r g) (h : env'.Agrees env) (id : ExprId)
    (feature : Feature) (type : Ty) :
    (env'.expectBoolean (f id) feature type).Follows g (env.expectBoolean id feature type) := by
  unfold expectBoolean
  rw [h.compatible]
  split
  · exact follows_pure _
  · exact Follows.bind (follows_report (hg ..)) fun _ => follows_pure _

theorem follows_expectNumeric (hg : Relabels f r g) (id : ExprId) (feature : Feature) (type : Ty) :
    (expectNumeric (f id) feature type).Follows g (expectNumeric id feature type) := by
  unfold expectNumeric
  exact Follows.ite (follows_report (hg (.notNumeric type) ..)) _

theorem follows_binaryResult (hg : Relabels f r g) (h : env'.Agrees env) (id : ExprId)
    (left right : Ty) (op : BinaryOp) :
    (env'.binaryResult (f id) left right op).Follows g (env.binaryResult id left right op) := by
  cases op with
  | boolean op =>
    refine (follows_expectBoolean hg h id .left left).bind fun _ => ?_
    exact (follows_expectBoolean hg h id .right right).bind fun _ => follows_pure _
  | comparison op =>
    rw [binaryResult, binaryResult, comparisonResult, comparisonResult, h.compatible]
    split
    · exact follows_pure _
    · split
      · exact follows_pure _
      · exact follows_fail (hg ..)
  | addition op | multiplication op =>
    refine (follows_expectNumeric hg id .left left).bind fun _ => ?_
    exact (follows_expectNumeric hg id .right right).bind fun _ => follows_pure _

theorem follows_negationResult (hg : Relabels f r g) (h : env'.Agrees env) (id : ExprId)
    (operand : Ty) :
    (env'.negationResult (f id) operand).Follows g (env.negationResult id operand) :=
  (follows_expectBoolean hg h id .operand operand).bind fun _ => follows_pure _

theorem follows_signedResult (hg : Relabels f r g) (id : ExprId) (operand : Ty) :
    (signedResult (f id) operand).Follows g (signedResult id operand) := by
  unfold signedResult
  split
  · exact follows_pure _
  · exact follows_fail (hg ..)

theorem follows_conditionHolds (hg : Relabels f r g) (id : ExprId) (condition : Ty) :
    (conditionHolds (f id) condition).Follows g (conditionHolds id condition) := by
  unfold conditionHolds
  split
  · exact follows_pure _
  · split
    · exact follows_pure _
    · exact Follows.bind (follows_report (hg ..)) fun _ => follows_pure _

theorem follows_ternaryResult (hg : Relabels f r g) (h : env'.Agrees env) (id : ExprId)
    (thenType elseType : Ty) :
    (env'.ternaryResult (f id) thenType elseType).Follows g
      (env.ternaryResult id thenType elseType) := by
  unfold ternaryResult
  rw [h.policy, h.compatible]
  split
  · exact follows_pure _
  · cases env.policy with
    | boolean =>
      refine Follows.ite_bind (follows_report (hg (.ternaryThen thenType) ..)) (fun _ => ?_) _
      exact Follows.ite_bind (follows_report (hg (.ternaryElse elseType) ..))
        (fun _ => follows_pure _) _
    | matching =>
      dsimp only
      split
      · exact follows_fail (hg ..)
      · exact follows_pure _

/-! ### Final expressions -/

theorem follows_checkChains (hg : Relabels f r g) (h : env'.Agrees env) (id : ExprId)
    (root : ObjectId) (index : Nat) (chains : List (List String)) :
    (env'.checkChains (f id) root index chains).Follows g
      (env.checkChains id root index chains) := by
  induction chains generalizing index with
  | nil => exact follows_pure _
  | cons chain chains ih =>
    refine follows_lift_bind (h.offendingPosition root chain) fun offending => ?_
    cases offending with
    | none => exact (ih (index + 1)).bind fun _ => follows_pure _
    | some position =>
      refine follows_lift_bind rfl fun property => ?_
      refine Follows.bind (follows_reportAt (hg ..)) fun _ => ?_
      exact (ih (index + 1)).bind fun _ => follows_pure _

theorem follows_finalResult (hg : Relabels f r g) (h : env'.Agrees env) (id : ExprId)
    (kind : ScopeKind) (chains : List (List String)) :
    (env'.finalResult (f id) kind chains).Follows g (env.finalResult id kind chains) := by
  unfold finalResult
  split
  · exact follows_fail (hg ..)
  · refine (follows_root hg h id .finalElements).bind fun root => ?_
    cases root with
    | none => exact follows_pure _
    | some root => exact (follows_checkChains hg h id root 0 chains).bind fun _ => follows_pure _

/-! ### Methods -/

theorem follows_simpleResult (hg : Relabels f r g) (id : ExprId) (index : Nat)
    (method : SimpleMethod) (type : Ty) :
    (simpleResult (f id) index method type).Follows g (simpleResult id index method type) := by
  cases method with
  | _ =>
    rw [simpleResult, simpleResult]
    split
    · exact follows_pure _
    · exact follows_failAt (hg ..)

theorem follows_lambdaResult (hg : Relabels f r g) (id : ExprId) (index : Nat)
    (method : ParametricMethod) (type body : Ty) :
    (lambdaResult (f id) index method type body).Follows g
      (lambdaResult id index method type body) := by
  unfold lambdaResult
  split
  · exact follows_pure _
  · split
    · exact follows_failAt (hg ..)
    · cases method <;> exact follows_pure _

/-- A lambda is entered in both scopes, or refused in both. -/
theorem lambdaScope_renames (hg : Relabels f r g) (id : ExprId) (index : Nat)
    (method : ParametricMethod) {binder : String}
    (hs : s'.lookup (r binder) = s.lookup binder) (type : Ty) :
    (lambdaScope (f id) index method (r binder) type s').Follows g
          (lambdaScope id index method binder type s) ∧
        (lambdaScope id index method binder type s).value = none ∨
      lambdaScope (f id) index method (r binder) type s' =
          pure (some (.child s' (r binder) type.unwrapCollection)) ∧
        lambdaScope id index method binder type s =
          pure (some (.child s binder type.unwrapCollection)) := by
  unfold lambdaScope Scope.bind
  rw [hs]
  split
  · exact Or.inl ⟨follows_refuseAt (hg ..), rfl⟩
  · cases s.lookup binder with
    | none => exact Or.inr ⟨rfl, rfl⟩
    | some existing => exact Or.inl ⟨follows_refuseAt (hg ..), rfl⟩

/-- The steps along a path are each followed by the rest unless their type is `error`. -/
theorem follows_unless_error {c' c : Check Ty} (hc : c'.Follows g c) {rest' rest : Ty → Check Ty}
    (hrest : ∀ type, (rest' type).Follows g (rest type)) :
    (c' >>= fun type => if type.isError then pure .error else rest' type).Follows g
      (c >>= fun type => if type.isError then pure .error else rest type) := by
  refine hc.bind fun type => ?_
  split
  · exact follows_pure _
  · exact hrest type

/-- The expression is inferred alike with other numbers and names, in scopes that have the same
variables under the other names. -/
def FollowsRenamedAt (f : ExprId → ExprId) (r : String → String) (g : Finding → Finding)
    (env' env : Env) (e : Expr) : Prop :=
  ∀ (s' s : Scope) (kind : ScopeKind), Scope.Renames r e.names s' s →
    (env'.infer s' kind ((e.renumbered f).renamed r)).Follows g (env.infer s kind e)

theorem follows_applyMethods (hg : Relabels f r g) (id : ExprId) (index : Nat) (type : Ty)
    {names : List String} (hs : Scope.Renames r names s' s) {methods : List Method}
    (hbinders : Expr.binders methods ⊆ names) (hnames : ∀ c ∈ Expr.bodies methods, c.names ⊆ names)
    (hbodies : ∀ c ∈ Expr.bodies methods, FollowsRenamedAt f r g env' env c) :
    (env'.applyMethods (f id) s' index type
        (Expr.renamedMethods r (Expr.renumberedMethods f methods))).Follows g
      (env.applyMethods id s index type methods) := by
  induction methods generalizing index type with
  | nil =>
    rw [Expr.renumberedMethods, Expr.renamedMethods, applyMethods, applyMethods]
    exact follows_pure _
  | cons first rest ih =>
    cases first with
    | simple method =>
      rw [Expr.renumberedMethods, Expr.renamedMethods, applyMethods, applyMethods]
      refine follows_unless_error (follows_simpleResult hg id index method type) fun next => ?_
      exact ih (index + 1) next hbinders hnames hbodies
    | parametric method binder body =>
      obtain ⟨hbinder, hbinders⟩ := List.cons_subset.mp hbinders
      obtain ⟨hname, hnames⟩ := List.forall_mem_cons.mp hnames
      obtain ⟨hbody, hbodies⟩ := List.forall_mem_cons.mp hbodies
      rw [Expr.renumberedMethods, Expr.renamedMethods, applyMethods, applyMethods]
      -- the scopes of the bodies differ where those around do, so their values are not compared
      rcases lambdaScope_renames hg id index method (hs.lookup binder hbinder) type with
        ⟨hscope, hnone⟩ | ⟨h', h⟩
      · refine hscope.bind_value ?_
        rw [hnone]
        exact follows_pure _
      · rw [h', h, pure_bind, pure_bind]
        have hinner := (hs.child hbinder type.unwrapCollection).mono hname
        refine (hbody _ _ .methodLocal hinner).bind fun bodyType => ?_
        refine follows_unless_error (follows_lambdaResult hg ..) fun next => ?_
        exact ih (index + 1) next hbinders hnames hbodies

/-! ### The tree -/

/-- **What inference depends on:** in an environment that agrees, with other numbers, and with other
names in a scope that has the same variables under them, an expression has the same type, and the
same findings at the new places with the new names. -/
theorem follows_infer_renamed (hg : Relabels f r g) (h : env'.Agrees env) (e : Expr) :
    FollowsRenamedAt f r g env' env e := by
  induction e using Expr.induction_on_children with
  | h e ih =>
    intro s' s kind hs
    have hpart : ∀ c ∈ e.children,
        (env'.infer s' kind ((c.renumbered f).renamed r)).Follows g (env.infer s kind c) :=
      fun c hc => ih c hc s' s kind (hs.mono (Expr.names_child_subset hc))
    have hform := e.names_form_subset
    obtain ⟨id, form⟩ := e
    cases form with
    | binary op left right =>
      rw [Expr.renumbered, Form.renumbered, Expr.renamed, Form.renamed, infer, infer]
      refine (hpart left (by simp [Expr.children])).bind fun leftType => ?_
      refine (hpart right (by simp [Expr.children])).bind fun rightType => ?_
      exact follows_binaryResult hg h ..
    | lone op operand | parenthesized operand =>
      rw [Expr.renumbered, Form.renumbered, Expr.renamed, Form.renamed, infer, infer]
      exact hpart operand List.mem_cons_self
    | negation operand =>
      rw [Expr.renumbered, Form.renumbered, Expr.renamed, Form.renamed, infer, infer]
      exact (hpart operand List.mem_cons_self).bind fun _ => follows_negationResult hg h ..
    | signed op operand =>
      rw [Expr.renumbered, Form.renumbered, Expr.renamed, Form.renamed, infer, infer]
      exact (hpart operand List.mem_cons_self).bind fun _ => follows_signedResult hg ..
    | ternary condition thenValue elseValue =>
      rw [Expr.renumbered, Form.renumbered, Expr.renamed, Form.renamed, infer, infer]
      refine (hpart condition (by simp [Expr.children])).bind fun conditionType => ?_
      refine (follows_conditionHolds hg id conditionType).bind fun holds => ?_
      split
      · refine (hpart thenValue (by simp [Expr.children])).bind fun thenType => ?_
        refine (hpart elseValue (by simp [Expr.children])).bind fun elseType => ?_
        exact follows_ternaryResult hg h ..
      · exact follows_pure _
    | final chains =>
      rw [Expr.renumbered, Form.renumbered, Expr.renamed, Form.renamed, infer, infer]
      exact follows_finalResult hg h ..
    | path head properties methods =>
      rw [Expr.renumbered, Form.renumbered, Expr.renamed, Form.renamed, infer, infer]
      obtain ⟨hhead, hbinders⟩ := List.append_subset.mp hform
      refine follows_unless_error (follows_base hg h id (hs.mono hhead) kind properties)
        fun type => ?_
      exact follows_applyMethods hg id 0 type hs hbinders
        (fun c hc => Expr.names_child_subset hc) ih
    | _ =>
      rw [Expr.renumbered, Form.renumbered, Expr.renamed, Form.renamed, infer, infer]
      exact follows_pure _

/-- The expression is inferred alike in scopes that agree on its names. -/
def FollowsAt (f : ExprId → ExprId) (g : Finding → Finding) (env' env : Env) (e : Expr) : Prop :=
  ∀ (s' s : Scope) (kind : ScopeKind), Scope.AgreesOn e.names s' s →
    (env'.infer s' kind (e.renumbered f)).Follows g (env.infer s kind e)

/-- The names of variables may stay. -/
theorem follows_infer (hg : Renumbers f g) (h : env'.Agrees env) (e : Expr) :
    FollowsAt f g env' env e := by
  intro s' s kind hs
  have hfollows := follows_infer_renamed hg.relabels h e s' s kind hs.renames
  rwa [Expr.renamed_id] at hfollows

end Env

end DomainModel
