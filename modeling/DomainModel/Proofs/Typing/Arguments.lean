import DomainModel.Proofs.Clean.Basic
import DomainModel.Proofs.Typing.Elements
import DomainModel.Proofs.Typing.Finals
import DomainModel.Proofs.Typing.Locality
import DomainModel.Rules.Invariants

/-! # Arguments of queries

The arguments of a query are names of variables, and the type of each has to be exactly that of the
parameter at its position. Only the path that calls the query reports an argument for its type
(`Env.mem_findings_rule`), and only if the variable has another type around the whole expression
(`Env.argument_reported`).

In an invariant of a translation the variables are its attributes, each with a type that is declared
by name. Where the name is that of an object of the mapped aggregate, the attribute has the type of
a parameter that takes the object exactly if the object is an entity
(`Model.lookup_object_attribute`). So an entity can be passed where it is expected
(`Model.checkInterInvariant_object_argument`), and a value object, an event or an enum cannot
(`Model.valueObject_argument_reported`). -/

namespace DomainModel

/-- The expression is a path that calls the query with the argument at the position. -/
def Expr.Passes (e : Expr) (query : String) (position : Nat) (argument : String) : Prop :=
  ∃ params properties methods,
    e.form = .path (.query query params) properties methods ∧ params[position]? = some argument

/-- A call passes one argument at a position. -/
theorem Expr.Passes.unique {e : Expr} {query query' argument argument' : String} {position : Nat}
    (h : e.Passes query position argument) (h' : e.Passes query' position argument') :
    query' = query ∧ argument' = argument := by
  obtain ⟨params, properties, methods, hform, hargument⟩ := h
  obtain ⟨params', properties', methods', hform', hargument'⟩ := h'
  rw [hform] at hform'
  cases hform'
  rw [hargument] at hargument'
  cases hargument'
  exact ⟨rfl, rfl⟩

/-- The problem is the type of an argument. -/
def Problem.IsArgumentType : Problem → Prop
  | .queryParamType _ => True
  | _ => False

open Problem (IsArgumentType)
open Check (avoids_bind avoids_lift_bind avoids_pure avoids_ite)

namespace Env

variable (env : Env)

/-! ### Rules that do not look at arguments -/

theorem avoids_argument_refuse {α : Type} {id : ExprId} {f : Feature} {p : Problem}
    (hp : ¬p.IsArgumentType) : (refuse id f p : Check (Option α)).Avoids IsArgumentType := by
  simpa [refuse] using hp

theorem avoids_argument_failAt {id : ExprId} {f : Feature} {i : Nat} {p : Problem}
    (hp : ¬p.IsArgumentType) : (failAt id f i p).Avoids IsArgumentType := by
  simpa [failAt] using hp

theorem avoids_argument_expectBoolean (id : ExprId) (side : Feature) (type : Ty) :
    (env.expectBoolean id side type).Avoids IsArgumentType := by
  unfold expectBoolean
  split <;> simp [IsArgumentType]

theorem avoids_argument_binaryResult (id : ExprId) (left right : Ty) (op : BinaryOp) :
    (env.binaryResult id left right op).Avoids IsArgumentType := by
  have harith : (arithmeticResult id left right).Avoids IsArgumentType := by
    simp [arithmeticResult, expectNumeric, avoids_bind, avoids_ite, IsArgumentType]
  cases op with
  | boolean op => simp [binaryResult, booleanResult, avoids_bind, avoids_argument_expectBoolean]
  | comparison op =>
    rw [binaryResult, comparisonResult]
    split
    · exact avoids_pure
    · split <;> simp [fail, IsArgumentType]
  | addition op => exact harith
  | multiplication op => exact harith

theorem avoids_argument_signedResult (id : ExprId) (type : Ty) :
    (signedResult id type).Avoids IsArgumentType := by
  unfold signedResult
  split <;> simp [fail, IsArgumentType]

theorem avoids_argument_conditionHolds (id : ExprId) (type : Ty) :
    (conditionHolds id type).Avoids IsArgumentType := by
  unfold conditionHolds
  (repeat' split) <;> simp [IsArgumentType]

theorem avoids_argument_ternaryResult (id : ExprId) (thenType elseType : Ty) :
    (env.ternaryResult id thenType elseType).Avoids IsArgumentType := by
  unfold ternaryResult
  (repeat' split) <;> simp [fail, avoids_bind, IsArgumentType]

theorem avoids_argument_root (id : ExprId) (feature : Feature) :
    (env.root id feature).Avoids IsArgumentType := by
  unfold root
  cases env.aggregate with
  | none => exact avoids_argument_refuse not_false
  | some a =>
    rw [avoids_lift_bind]
    cases (env.model.rootEntity a).value with
    | none => exact avoids_argument_refuse not_false
    | some o => exact avoids_pure

theorem avoids_argument_checkChains (id : ExprId) (root : ObjectId) (index : Nat)
    (chains : List (List String)) :
    (env.checkChains id root index chains).Avoids IsArgumentType := by
  induction chains generalizing index with
  | nil => exact avoids_pure
  | cons chain chains ih =>
    rw [checkChains, avoids_lift_bind]
    split
    · simp [avoids_bind, ih, IsArgumentType]
    · simp [ih]

theorem avoids_argument_finalResult (id : ExprId) (kind : ScopeKind) (chains : List (List String)) :
    (env.finalResult id kind chains).Avoids IsArgumentType := by
  unfold finalResult
  split
  · simp [fail, IsArgumentType]
  · rw [avoids_bind]
    refine ⟨env.avoids_argument_root id _, ?_⟩
    split
    · exact avoids_pure
    · simp [avoids_argument_checkChains]

theorem avoids_argument_variableStart (id : ExprId) (name : String) (type : Ty) :
    (env.variableStart id name type).Avoids IsArgumentType := by
  cases type with
  | error | collection t | optional t => exact avoids_pure
  | primitive n | entity n =>
    rw [variableStart, avoids_lift_bind]
    split
    · exact avoids_pure
    · split
      · exact avoids_pure
      · exact avoids_argument_refuse not_false
  | final | null => exact avoids_argument_refuse not_false

theorem avoids_argument_propertyError (id : ExprId) (properties : List String) (position : Nat) :
    (propertyError id properties position).Avoids IsArgumentType := by
  rw [propertyError, avoids_lift_bind]
  exact avoids_argument_failAt not_false

theorem avoids_argument_methodRule (id : ExprId) (scope : Scope) (index : Nat) (type : Ty)
    (methods : List Method) :
    (env.methodRule id scope index type methods).Avoids IsArgumentType := by
  induction methods generalizing index type with
  | nil => exact avoids_pure
  | cons first rest ih =>
    have hrest : ∀ next : Ty, Check.Avoids IsArgumentType
        (if next.isError then pure .error else env.methodRule id scope (index + 1) next rest) := by
      intro next
      split
      · exact avoids_pure
      · exact ih (index + 1) next
    cases first with
    | simple method =>
      have hsimple : (simpleResult id index method type).Avoids IsArgumentType := by
        cases method <;>
          · rw [simpleResult]
            split
            · exact avoids_pure
            · exact avoids_argument_failAt not_false
      rw [methodRule, avoids_bind]
      exact ⟨hsimple, hrest _⟩
    | parametric method binder body =>
      have hscope : (lambdaScope id index method binder type scope).Avoids IsArgumentType := by
        unfold lambdaScope
        (repeat' split) <;> simp [refuseAt, IsArgumentType]
      have hresult : ∀ bodyType,
          (lambdaResult id index method type bodyType).Avoids IsArgumentType := by
        intro bodyType
        unfold lambdaResult
        (repeat' split) <;> simp [failAt, IsArgumentType]
      rw [methodRule, avoids_bind]
      refine ⟨hscope, ?_⟩
      split
      · exact avoids_pure
      · rw [avoids_bind]
        exact ⟨hresult _, hrest _⟩

/-! ### Queries -/

/-- An argument is reported for a type that is not the one of the parameter at its position. -/
theorem mismatchedParam_eq_some {scope : Scope} {params : List String} {declared : List Parameter}
    {argument : String} {i : Nat}
    (h : (env.mismatchedParam scope params declared).value = some (argument, i)) :
    params[i]? = some argument ∧ ∃ parameter, declared[i]? = some parameter ∧
      scope.lookup argument ≠ some (parameter.type.type env.model).value := by
  unfold mismatchedParam at h
  rw [Lookup.value_bind, Lookup.value_find?] at h
  obtain ⟨⟨⟨found, parameter⟩, j⟩, hfind, hfound⟩ := Option.map_eq_some_iff.mp h
  cases hfound
  have hmem := List.mk_mem_zipIdx_iff_getElem?.mp (List.mem_of_find?_eq_some hfind)
  obtain ⟨hargument, hparameter⟩ := List.getElem?_zip_eq_some.mp hmem
  exact ⟨hargument, parameter, hparameter, by simpa using List.find?_some hfind⟩

theorem avoids_argument_queryOperation (id : ExprId) (name : String) :
    (env.queryOperation id name).Avoids IsArgumentType := by
  rw [queryOperation, avoids_bind]
  refine ⟨env.avoids_argument_root id _, ?_⟩
  split
  · exact avoids_pure
  · rw [avoids_lift_bind]
    split
    · exact avoids_argument_refuse not_false
    · split
      · exact avoids_argument_refuse not_false
      · exact avoids_pure

theorem avoids_argument_queryStart (id : ExprId) (name : String) (operation : RepositoryOperation) :
    (env.queryStart id name operation).Avoids IsArgumentType := by
  rw [queryStart, avoids_lift_bind]
  split
  · exact avoids_argument_refuse not_false
  · rw [avoids_lift_bind]
    split
    · rw [avoids_lift_bind]
      exact avoids_argument_refuse not_false
    · split
      · exact avoids_lift_bind.mpr avoids_pure
      · exact avoids_pure

/-- A call reports the type of an argument at its position, with the operation that is called. -/
theorem mem_findings_query {id : ExprId} {name : String} {params : List String} {scope : Scope}
    {f : Finding} (hf : f ∈ (env.query id name params scope).findings)
    (hp : f.problem.IsArgumentType) :
    ∃ operation argument i parameter,
      (env.queryOperation id name).value = some operation ∧ params[i]? = some argument ∧
        operation.parameters[i]? = some parameter ∧
        scope.lookup argument ≠ some (parameter.type.type env.model).value ∧
        f = ⟨.queryParamType argument, .expr id, .queryParams, some i⟩ := by
  rw [query, Check.findings_bind, List.mem_append] at hf
  rcases hf with hf | hf
  · exact absurd hp (env.avoids_argument_queryOperation id name f hf)
  · cases hoperation : (env.queryOperation id name).value with
    | none =>
      rw [hoperation] at hf
      cases hf
    | some operation =>
      rw [hoperation] at hf
      dsimp only at hf
      -- of the reports of a call only the last but one is about the type of an argument
      split at hf
      · rw [List.mem_singleton.mp hf] at hp
        cases hp
      · split at hf
        · rw [List.mem_singleton.mp hf] at hp
          cases hp
        · rw [Check.findings_bind, Check.findings_lift, List.nil_append] at hf
          dsimp only [Check.value_lift] at hf
          split at hf
          · next argument i hmismatch =>
            obtain ⟨hargument, parameter, hparameter, hne⟩ := env.mismatchedParam_eq_some hmismatch
            exact ⟨operation, argument, i, parameter, rfl, hargument, hparameter, hne,
              List.mem_singleton.mp hf⟩
          · exact absurd hp (env.avoids_argument_queryStart id name operation f hf)

/-! ### Paths -/

theorem mem_findings_head {id : ExprId} {scope : Scope} {kind : ScopeKind} {head : PathHead}
    {f : Finding} (hf : f ∈ (env.head id scope kind head).findings)
    (hp : f.problem.IsArgumentType) :
    ∃ name params, head = .query name params ∧ f ∈ (env.query id name params scope).findings := by
  cases head with
  | root =>
    have havoids : (env.head id scope kind .root).Avoids IsArgumentType := by
      rw [Env.head]
      split
      · exact avoids_argument_refuse (by split <;> exact not_false)
      · rw [avoids_bind]
        exact ⟨env.avoids_argument_root id _, avoids_pure⟩
    exact absurd hp (havoids f hf)
  | query name params =>
    rw [Env.head] at hf
    split at hf
    · exact absurd hp (avoids_argument_refuse (by split <;> exact not_false) f hf)
    · exact ⟨name, params, rfl, hf⟩
  | «variable» name =>
    have havoids : (env.head id scope kind (.variable name)).Avoids IsArgumentType := by
      rw [Env.head]
      split
      · exact avoids_argument_refuse not_false
      · split
        · exact avoids_argument_refuse (by cases kind <;> exact not_false)
        · exact env.avoids_argument_variableStart id name _
    exact absurd hp (havoids f hf)

theorem mem_findings_base {id : ExprId} {scope : Scope} {kind : ScopeKind} {head : PathHead}
    {properties : List String} {f : Finding}
    (hf : f ∈ (env.base id scope kind head properties).findings)
    (hp : f.problem.IsArgumentType) : f ∈ (env.head id scope kind head).findings := by
  rw [base, Check.findings_bind, List.mem_append] at hf
  rcases hf with hf | hf
  · exact hf
  · split at hf
    · cases hf
    · rw [Check.findings_bind, Check.findings_lift, List.nil_append] at hf
      dsimp only [Check.value_lift] at hf
      split at hf
      · cases hf
      · exact absurd hp (avoids_argument_propertyError id properties _ f hf)
    · split at hf
      · cases hf
      · exact absurd hp (avoids_argument_propertyError id properties _ f hf)

/-- **Arguments are reported by calls.** Of the rules of all forms only that of a path from a query
reports the type of an argument, and it does so for its start. -/
theorem mem_findings_rule {scope : Scope} {kind : ScopeKind} {e : Expr} {f : Finding}
    (hf : f ∈ (env.rule scope kind e).findings) (hp : f.problem.IsArgumentType) :
    ∃ name params properties methods, e.form = .path (.query name params) properties methods ∧
      f ∈ (env.query e.id name params scope).findings := by
  obtain ⟨id, form⟩ := e
  cases form with
  | binary op left right => exact absurd hp (env.avoids_argument_binaryResult id _ _ op f hf)
  | negation operand =>
    rw [rule, negationResult, Check.findings_bind, List.mem_append] at hf
    rcases hf with hf | hf
    · exact absurd hp (env.avoids_argument_expectBoolean id _ _ f hf)
    · cases hf
  | signed op operand => exact absurd hp (avoids_argument_signedResult id _ f hf)
  | ternary condition thenValue elseValue =>
    rw [rule, Check.findings_bind, List.mem_append] at hf
    rcases hf with hf | hf
    · exact absurd hp (avoids_argument_conditionHolds id _ f hf)
    · split at hf
      · exact absurd hp (env.avoids_argument_ternaryResult id _ _ f hf)
      · cases hf
  | final chains => exact absurd hp (env.avoids_argument_finalResult id kind chains f hf)
  | path head properties methods =>
    rw [rule, Check.findings_bind, List.mem_append] at hf
    rcases hf with hf | hf
    · obtain ⟨name, params, rfl, hquery⟩ := env.mem_findings_head (env.mem_findings_base hf hp) hp
      exact ⟨name, params, properties, methods, rfl, hquery⟩
    · split at hf
      · cases hf
      · exact absurd hp (env.avoids_argument_methodRule id scope 0 _ methods f hf)
  | _ => cases hf

end Env

/-- The query of that name on the aggregate is the operation of its root entity's repository. -/
def Model.Queries (m : Model) (a : AggregateId) (name : String) (operation : RepositoryOperation) :
    Prop :=
  ∃ root repository, (m.rootEntity a).value = some root ∧
    (m.object root).value.repository = some repository ∧
    repository.operations.find? (·.name == name) = some operation

namespace Env

variable {env : Env}

theorem value_queryOperation {m : Model} {a : AggregateId} {name : String}
    {operation : RepositoryOperation} (h : m.Queries a name operation) (policy : TernaryPolicy)
    (id : ExprId) :
    ((forAggregate m (some a) policy).value.queryOperation id name).value = some operation := by
  obtain ⟨root, repository, hroot, hrepository, hfind⟩ := h
  have hvalue : ((forAggregate m (some a) policy).value.root id .queryOperation).value = some root :=
    (value_root _ id .queryOperation).trans hroot
  have hmodel : (forAggregate m (some a) policy).value.model = m := rfl
  simp [queryOperation, hvalue, hmodel, hrepository, hfind]

/-- **An argument is reported by a call of a query that takes another type.** The type of the
argument is the one that it has around the whole expression, however deep in lambdas the call is. -/
theorem argument_reported {scope : Scope} {kind : ScopeKind} {e : Expr} {f : Finding}
    (hf : f ∈ (env.infer scope kind e).findings) (hp : f.problem.IsArgumentType) :
    ∃ n ∈ e.nodes, ∃ name operation argument i parameter,
      n.Passes name i argument ∧ (env.queryOperation n.id name).value = some operation ∧
        operation.parameters[i]? = some parameter ∧
        scope.lookup argument ≠ some (parameter.type.type env.model).value ∧
        f = ⟨.queryParamType argument, .expr n.id, .queryParams, some i⟩ := by
  obtain ⟨n, hn, inner, innerKind, hkeeps, hrule⟩ := env.mem_findings_infer hf
  obtain ⟨name, params, properties, methods, hform, hquery⟩ := env.mem_findings_rule hrule hp
  obtain ⟨operation, argument, i, parameter, hoperation, hargument, hparameter, hne, rfl⟩ :=
    env.mem_findings_query hquery hp
  exact ⟨n, hn, name, operation, argument, i, parameter,
    ⟨params, properties, methods, hform, hargument⟩, hoperation, hparameter,
    fun h => hne (hkeeps argument _ h), rfl⟩

end Env

namespace Model

variable {m : Model}

/-! ### Translations -/

theorem mem_entityNames {a : AggregateId} {name : String} :
    name ∈ (m.entityNames a).value ↔
      ∃ o ∈ (m.aggregate a).value.objects, (m.object o).value.isEntity = true ∧
        (m.object o).value.name = name := by
  simp [entityNames, and_assoc]

/-- The type of the translation attribute of a name that no other one has. -/
theorem lookup_translationScope {ac : AntiCorruption} {a : AggregateId} (ha : ac.aggregate = some a)
    {t : AttributeTranslation} (ht : t ∈ ac.attributes)
    (hunique : ∀ u ∈ ac.attributes, u.name = t.name → u = t) :
    (m.translationScope ac).value.lookup t.name =
      some (if t.type ∈ (m.entityNames a).value then .entity t.type else .primitive t.type) := by
  have hscope : (m.translationScope ac).value = .root (ac.attributes.map fun u => (u.name,
      if u.type ∈ (m.entityNames a).value then .entity u.type else .primitive u.type)) := by
    simp [translationScope, ha]
  rw [hscope]
  refine Scope.lookup_root_of_unique (List.mem_map.mpr ⟨t, ht, rfl⟩) fun b hb hname => ?_
  obtain ⟨u, hu, rfl⟩ := List.mem_map.mp hb
  rw [hunique u hu hname]

/-- **Only entities are known by name.** Of the objects of the aggregate, whose names are distinct,
exactly the entities give an attribute that is declared with their name the type that a parameter
has. -/
theorem lookup_object_attribute {ac : AntiCorruption} {a : AggregateId}
    (hnames : (m.objects.map (·.name)).Nodup)
    (hlisted : ∀ o ∈ (m.aggregate a).value.objects, m.Holds o.any) (ha : ac.aggregate = some a)
    {t : AttributeTranslation} (ht : t ∈ ac.attributes)
    (hunique : ∀ u ∈ ac.attributes, u.name = t.name → u = t) {o : ObjectId}
    (ho : o ∈ (m.aggregate a).value.objects) (htype : t.type = (m.object o).value.name) :
    (m.translationScope ac).value.lookup t.name = some (.entity (m.object o).value.name) ↔
      (m.object o).value.isEntity = true := by
  have hmem : t.type ∈ (m.entityNames a).value ↔ (m.object o).value.isEntity = true := by
    rw [mem_entityNames]
    constructor
    · rintro ⟨u, hu, hentity, hname⟩
      rwa [object_name_inj hnames (hlisted u hu) (hlisted o ho) (hname.trans htype)] at hentity
    · exact fun hentity => ⟨o, ho, hentity, htype.symm⟩
  rw [lookup_translationScope ha ht hunique, ← hmem, htype]
  split <;> simp_all

/-- What is found about arguments in an invariant is found in its expression. -/
theorem mem_findings_checkInterInvariant {policy : TernaryPolicy} {owner : AntiCorruptionId}
    {a : AggregateId} (ha : (m.antiCorruption owner).value.aggregate = some a) {index : Nat}
    {invariant : Invariant}
    (hinvariant : (m.antiCorruption owner).value.invariants[index]? = some invariant) {f : Finding}
    (hf : f ∈ (m.checkInterInvariant policy owner index).findings) (hp : f.problem.IsArgumentType) :
    f ∈ ((Env.forAggregate m (some a) policy).value.infer
      (m.translationScope (m.antiCorruption owner).value).value .interInvariant
        invariant.expression).findings := by
  rw [checkInterInvariant, Check.findings_bind, Check.findings_lift, List.nil_append] at hf
  dsimp only [Check.value_lift] at hf
  rw [hinvariant, ha] at hf
  simp only [Check.findings_bind, Check.findings_lift, Check.value_lift, List.nil_append] at hf
  rcases List.mem_append.mp hf with hf | hf
  · exact hf
  · split at hf
    · rw [List.mem_singleton.mp hf] at hp
      cases hp
    · cases hf

/-- **Arguments that fit are not reported.** Where an attribute has the type that a query takes as
its parameter `k`, an argument that is reported at `k` is another one, or is passed to another
query. -/
theorem reported_elsewhere {owner : AntiCorruptionId} {a : AggregateId}
    (ha : (m.antiCorruption owner).value.aggregate = some a) {query : String}
    {operation : RepositoryOperation} (hquery : m.Queries a query operation) {k : Nat}
    {parameter : Parameter} (hparameter : operation.parameters[k]? = some parameter) {name : String}
    (hlookup : (m.translationScope (m.antiCorruption owner).value).value.lookup name =
      some (parameter.type.type m).value) (policy : TernaryPolicy) {index : Nat}
    {invariant : Invariant}
    (hinvariant : (m.antiCorruption owner).value.invariants[index]? = some invariant) :
    ∀ f ∈ (m.checkInterInvariant policy owner index).findings, ∀ argument,
      f.problem = .queryParamType argument → f.location.index = some k →
        ∃ n ∈ invariant.expression.nodes, f.location.node = .expr n.id ∧
          ∃ called, n.Passes called k argument ∧ ¬(called = query ∧ argument = name) := by
  intro f hf argument hp hk
  have hargument : f.problem.IsArgumentType := by
    rw [hp]
    trivial
  have hfound := mem_findings_checkInterInvariant ha hinvariant hf hargument
  obtain ⟨n, hn, called, calledOperation, passed, i, expected, hpasses, hcalled, hexpects, hne,
    rfl⟩ := Env.argument_reported hfound hargument
  cases hp
  cases hk
  refine ⟨n, hn, rfl, called, hpasses, ?_⟩
  rintro ⟨rfl, rfl⟩
  -- the call is of the given operation, so the parameter it fails is the given one
  have hgiven := Env.value_queryOperation hquery policy n.id
  obtain rfl : calledOperation = operation := Option.some.inj (hcalled.symm.trans hgiven)
  obtain rfl : expected = parameter := Option.some.inj (hexpects.symm.trans hparameter)
  exact hne hlookup

/-- **An entity can be passed where it is expected.** Let a translation attribute `t`, the only one
of its name, be declared with the name of an object `o` of the mapped aggregate, where names are
distinct, and let a query of the aggregate's repository take that object as its parameter `k`. The
attribute has the type of the parameter exactly if the object is an entity. Then no invariant of the
translation is blamed for passing `t` there: an argument that is reported at `k` is another one, or
is passed to another query, and a call that passes `t` is not reported at `k`, if the nodes of the
invariant are told apart by their numbers. -/
theorem checkInterInvariant_object_argument (m : Model) (hnames : (m.objects.map (·.name)).Nodup)
    {owner : AntiCorruptionId} {a : AggregateId}
    (ha : (m.antiCorruption owner).value.aggregate = some a)
    (hlisted : ∀ o ∈ (m.aggregate a).value.objects, m.Holds o.any) {t : AttributeTranslation}
    (ht : t ∈ (m.antiCorruption owner).value.attributes)
    (hunique : ∀ u ∈ (m.antiCorruption owner).value.attributes, u.name = t.name → u = t)
    {o : ObjectId} (ho : o ∈ (m.aggregate a).value.objects)
    (htype : t.type = (m.object o).value.name) {query : String} {operation : RepositoryOperation}
    (hquery : m.Queries a query operation) {k : Nat} {parameter : Parameter}
    (hparameter : operation.parameters[k]? = some parameter)
    (hobject : parameter.type = ⟨.none, .domainObject (some o)⟩) (policy : TernaryPolicy)
    {index : Nat} {invariant : Invariant}
    (hinvariant : (m.antiCorruption owner).value.invariants[index]? = some invariant) :
    let scope := (m.translationScope (m.antiCorruption owner).value).value
    let run := m.checkInterInvariant policy owner index
    let nodes := invariant.expression.nodes
    (scope.lookup t.name = some (parameter.type.type m).value ↔
        (m.object o).value.isEntity = true) ∧
      ((m.object o).value.isEntity = true →
        (∀ f ∈ run.findings, ∀ argument,
          f.problem = .queryParamType argument → f.location.index = some k →
            ∃ n ∈ nodes, f.location.node = .expr n.id ∧
              ∃ name, n.Passes name k argument ∧ ¬(name = query ∧ argument = t.name)) ∧
        ((nodes.map Expr.id).Nodup → ∀ n ∈ nodes, n.Passes query k t.name →
          ∀ f ∈ run.findings, ∀ argument, f.location.node = .expr n.id →
            f.location.index = some k → f.problem ≠ .queryParamType argument)) := by
  intro scope run nodes
  have hexpected : (parameter.type.type m).value = .entity (m.object o).value.name := by
    rw [hobject]
    rfl
  have hlookup := lookup_object_attribute hnames hlisted ha ht hunique ho htype
  rw [← hexpected] at hlookup
  refine ⟨hlookup, fun hentity => ?_⟩
  have hother := reported_elsewhere ha hquery hparameter (hlookup.mpr hentity) policy hinvariant
  refine ⟨hother, fun hids n hn hpasses f hf argument hnode hk hp => ?_⟩
  obtain ⟨n', hn', hnode', name, hpasses', hnot⟩ := hother f hf argument hp hk
  have hid : n'.id = n.id := by
    rw [hnode] at hnode'
    exact (NodeRef.expr.inj hnode').symm
  cases List.inj_on_of_nodup_map hids hn' hn hid
  exact hnot (hpasses.unique hpasses')

/-- Orders are looked up by the order before them and by their price. The shop knows an order by
both, under the names of an entity and of a value object. -/
def quotedOrders : Model :=
  { Model.empty with
    contexts := [⟨"Sales", .feature, [⟨0⟩], [], [], [], none⟩,
      ⟨"Shop", .feature, [], [], [⟨0⟩], [], none⟩]
    aggregates := [⟨"Orders", some ⟨0⟩, [⟨0⟩, ⟨1⟩], []⟩]
    objects :=
      [⟨"Order", ⟨0⟩, .entity ⟨none, none⟩, true, [⟨0⟩, ⟨1⟩, ⟨2⟩], [], none,
          some ⟨"OrderRepository",
            [⟨"after", [⟨"order", ⟨.none, .domainObject (some ⟨0⟩)⟩⟩],
                some ⟨.none, .domainObject (some ⟨0⟩)⟩⟩,
              ⟨"byPrice", [⟨"price", ⟨.none, .domainObject (some ⟨1⟩)⟩⟩],
                some ⟨.none, .domainObject (some ⟨0⟩)⟩⟩]⟩, []⟩,
        ⟨"Money", ⟨0⟩, .valueObject, false, [], [], none, none, []⟩]
    attributes := [⟨"id", "String", ⟨0⟩, true, none⟩, ⟨"previous", "Order", ⟨0⟩, false, none⟩,
      ⟨"price", "Money", ⟨0⟩, false, none⟩]
    antiCorruptions := [⟨"OrderAcl", .translation, ⟨1⟩, some ⟨0⟩, some ⟨0⟩,
      [⟨"previous", "Order", some ⟨0⟩, some ⟨1⟩, none⟩,
        ⟨"price", "Money", some ⟨0⟩, some ⟨2⟩, none⟩],
      [⟨"successor", ⟨⟨0⟩, .binary (.comparison .ne)
          ⟨⟨1⟩, .path (.query "after" ["previous"]) [] []⟩ ⟨⟨2⟩, .null⟩⟩⟩,
        ⟨"sold", ⟨⟨3⟩, .binary (.comparison .ne)
          ⟨⟨4⟩, .path (.query "byPrice" ["price"]) [] []⟩ ⟨⟨5⟩, .null⟩⟩⟩]⟩] }

/-- The order before is an entity, and can be passed. -/
theorem checkInterInvariant_object_argument_previous :
    let m := quotedOrders
    let previous : AttributeTranslation := ⟨"previous", "Order", some ⟨0⟩, some ⟨1⟩, none⟩
    let call : Expr := ⟨⟨1⟩, .path (.query "after" ["previous"]) [] []⟩
    previous ∈ (m.antiCorruption ⟨0⟩).value.attributes ∧ call.Passes "after" 0 "previous" ∧
      (m.translationScope (m.antiCorruption ⟨0⟩).value).value.lookup "previous" =
        some (.entity "Order") ∧
      ∀ f ∈ (m.checkInterInvariant .boolean ⟨0⟩ 0).findings, ∀ argument,
        f.location.node = .expr ⟨1⟩ → f.location.index = some 0 →
          f.problem ≠ .queryParamType argument := by
  intro m previous call
  have names : (m.objects.map (·.name)).Nodup := by decide
  have mapped : (m.antiCorruption ⟨0⟩).value.aggregate = some ⟨0⟩ := by decide
  have declared : previous ∈ (m.antiCorruption ⟨0⟩).value.attributes := by decide
  have alone : ∀ u ∈ (m.antiCorruption ⟨0⟩).value.attributes,
      u.name = previous.name → u = previous := by decide
  have typed : previous.type = (m.object ⟨0⟩).value.name := by decide
  have queried : ∃ operation, m.Queries ⟨0⟩ "after" operation ∧
      operation.parameters[0]? = some ⟨"order", ⟨.none, .domainObject (some ⟨0⟩)⟩⟩ :=
    ⟨_, ⟨⟨0⟩, _, by decide, rfl, rfl⟩, rfl⟩
  obtain ⟨operation, hquery, hparameter⟩ := queried
  have stated : (m.antiCorruption ⟨0⟩).value.invariants[0]? =
      some ⟨"successor", ⟨⟨0⟩, .binary (.comparison .ne) call ⟨⟨2⟩, .null⟩⟩⟩ := rfl
  have passed : call.Passes "after" 0 previous.name := ⟨_, _, _, rfl, rfl⟩
  obtain ⟨htype, hsilent⟩ := checkInterInvariant_object_argument m names mapped (by decide) declared
    alone (by decide) typed hquery hparameter rfl .boolean stated
  obtain ⟨-, hcalls⟩ := hsilent (by decide)
  refine ⟨declared, passed, htype.mpr (by decide), ?_⟩
  exact hcalls (by decide) call (.tail _ (.head _)) passed

/-- **A value object cannot be passed where it is expected.** The price is declared as money, and
money is what the query takes. -/
theorem valueObject_argument_reported :
    let m := quotedOrders
    (m.objects.map (·.name)).Nodup ∧ m.Linked ∧
      (m.antiCorruption ⟨0⟩).value.aggregate = some ⟨0⟩ ∧
      (∃ operation, m.Queries ⟨0⟩ "byPrice" operation ∧
        operation.parameters[0]? = some ⟨"price", ⟨.none, .domainObject (some ⟨1⟩)⟩⟩) ∧
      (m.antiCorruption ⟨0⟩).value.attributes[1]? =
        some ⟨"price", (m.object ⟨1⟩).value.name, some ⟨0⟩, some ⟨2⟩, none⟩ ∧
      (m.checkInterInvariant .boolean ⟨0⟩ 1).findings =
        [⟨.queryParamType "price", .expr ⟨4⟩, .queryParams, some 0⟩] := by
  refine ⟨by decide, by decide, by decide, ?_, by decide, by decide⟩
  exact ⟨_, ⟨⟨0⟩, _, by decide, rfl, rfl⟩, rfl⟩

end Model

end DomainModel
