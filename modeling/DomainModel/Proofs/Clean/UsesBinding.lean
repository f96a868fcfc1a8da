import DomainModel.Proofs.Clean.FirstMap
import DomainModel.Proofs.Clean.KeyTranslation

/-! # Clean uses bindings

The entities with a uses binding about which nothing is reported are those whose binding is
`Model.WellBound` (`usesBinding_clean_iff_wellBound`). A check that depends on a missing link is
skipped. The link itself is then reported, with one exception: an entity without context may name
an anti-corruption declaration, which is looked up nowhere.

The value object of a well-bound entity has one constructor, unless a declared constructor stands
beside an operation that is named after the object: several such operations are refused, but the
declared constructor is not counted along with them (`constructed_twice_of_clean`). -/

namespace DomainModel

/-! ### Plain objects -/

namespace DomainObject

/-- The number of constructors: the declared one, and the operations named after the object. -/
def constructors (o : DomainObject) : Nat :=
  o.constructor.toList.length + Model.constructorOperations o

/-- The object consists of attributes and constructors, with one constructor operation at most. -/
structure IsPlain (o : DomainObject) : Prop where
  references : o.references = []
  repository : o.repository = none
  operations : ∀ p ∈ o.operations, p.name = o.name
  operations_le : o.operations.length ≤ 1
  constructed : o.constructor.isSome = true ∨ o.operations ≠ []

variable {o : DomainObject}

theorem constructorOperations_eq (h : ∀ p ∈ o.operations, p.name = o.name) :
    Model.constructorOperations o = o.operations.length :=
  List.countP_eq_length.mpr fun p hp => by simp [h p hp]

theorem value_isTooRich (o : DomainObject) :
    (Model.isTooRich o).value = false ↔ o.references = [] ∧ o.repository = none ∧
      (∀ p ∈ o.operations, p.name = o.name) ∧ o.operations.length ≤ 1 := by
  have hle : Model.constructorOperations o ≤ o.operations.length := List.countP_le_length
  have hall : Model.constructorOperations o = o.operations.length ↔
      ∀ p ∈ o.operations, p.name = o.name := by
    simp [Model.constructorOperations, List.countP_eq_length]
  rw [← hall]
  simp only [Model.isTooRich, Lookup.difference, if_pos hle, Lookup.value_bind, Lookup.value_pure,
    Bool.or_eq_false_iff, Bool.not_eq_false', List.isEmpty_iff, Option.isSome_eq_false_iff,
    Option.isNone_iff_eq_none, decide_eq_false_iff_not, and_assoc]
  refine and_congr_right fun _ => and_congr_right fun _ => ?_
  omega

/-- **A plain object has one constructor,** or a declared one beside an operation. -/
theorem IsPlain.constructors_eq (h : o.IsPlain) :
    o.constructors = if o.constructor.isSome && !o.operations.isEmpty then 2 else 1 := by
  have hle := h.operations_le
  rw [constructors, constructorOperations_eq h.operations]
  rcases hoperations : o.operations with _ | ⟨p, rest⟩
  · have hsome := h.constructed.resolve_right (not_not.mpr hoperations)
    obtain ⟨c, hc⟩ := Option.isSome_iff_exists.mp hsome
    simp [hc]
  · rw [hoperations, List.length_cons] at hle
    have hrest : rest = [] := List.length_eq_zero_iff.mp (by omega)
    cases hc : o.constructor <;> simp [hrest]

end DomainObject

namespace Model

open Check

variable {m : Model}

theorem checkPlain_clean {entity : ObjectId} {o : DomainObject} :
    (checkPlain entity o).Avoids (fun _ => True) ↔ o.IsPlain := by
  have hconstructed : (∀ p ∈ o.operations, p.name = o.name) →
      (¬(o.constructor.isNone && constructorOperations o == 0) = true ↔
        o.constructor.isSome = true ∨ o.operations ≠ []) := by
    intro hall
    rw [DomainObject.constructorOperations_eq hall]
    cases o.constructor <;> simp
  rw [checkPlain, avoids_lift_bind, avoids_ite_bind, avoids_ite]
  simp only [avoids_report, not_true, imp_false, Bool.not_eq_true, DomainObject.value_isTooRich]
  constructor
  · rintro ⟨⟨hreferences, hrepository, hall, hle⟩, hsome⟩
    exact ⟨hreferences, hrepository, hall, hle, (hconstructed hall).mp (by simpa using hsome)⟩
  · rintro ⟨hreferences, hrepository, hall, hle, hsome⟩
    exact ⟨⟨hreferences, hrepository, hall, hle⟩, by simpa using (hconstructed hall).mpr hsome⟩

/-! ### The context, the aggregate and the value object -/

variable (m) in
/-- The first map that lists the used context relates it to the owning one, and nowhere puts it
downstream. -/
structure MayUse (owner used : ContextId) : Prop where
  related : m.FirstMapDeclares used fun r =>
    r.participants = (some used, some owner) ∨ r.participants = (some owner, some used)
  not_downstream : ¬m.FirstMapDeclares used fun r =>
    r.upstreamDownstream? = some (some owner, some used)

theorem relationOf_reversed (used owner : ContextId) (r : Relationship) :
    (relationOf used owner r).reversed = true ↔
      r.upstreamDownstream? = some (some owner, some used) := by
  cases r <;> simp [relationOf, Relationship.upstreamDownstream?]

theorem relation_reversed (used owner : ContextId) :
    (m.relation used owner).value.reversed = true ↔ m.FirstMapDeclares used fun r =>
      r.upstreamDownstream? = some (some owner, some used) := by
  unfold relation FirstMapDeclares
  cases h : (m.contextMapOf used).value with
  | none => simp [h]
  | some map => simp [h, relationOf_reversed]

theorem checkUsedContext_clean {entity : ObjectId} {used owner : ContextId} :
    (m.checkUsedContext entity used owner).Avoids (fun _ => True) ↔ m.MayUse owner used := by
  rw [checkUsedContext, avoids_lift_bind, avoids_ite_lift_bind, avoids_ite]
  simp only [avoids_report, not_true, imp_false, relation_reversed, Bool.not_eq_true',
    Bool.not_eq_false, relation_related]
  exact ⟨fun ⟨hreversed, hrelated⟩ => ⟨hrelated, hreversed⟩,
    fun ⟨hrelated, hreversed⟩ => ⟨hreversed, hrelated⟩⟩

theorem checkBoundContext_clean {entity : ObjectId} {object : DomainObject} {uses : EntityUses}
    {owner : Option ContextId} :
    (m.checkBoundContext entity object uses owner).Avoids (fun _ => True) ↔
      ∃ used, uses.boundedContext = some used ∧ ∀ c, owner = some c → m.MayUse c used := by
  unfold checkBoundContext
  cases uses.boundedContext with
  | none => simp
  | some used => cases owner <;> simp [checkUsedContext_clean]

theorem checkUsedRoot_clean {entity : ObjectId} {a : AggregateId} :
    (m.checkUsedRoot entity a).Avoids (fun _ => True) ↔
      ∃ root key, (m.rootKey a).value = some (root, key) := by
  simp only [rootKey_eq_some]
  rw [checkUsedRoot, avoids_lift_bind]
  cases (m.rootEntity a).value with
  | none => simp
  | some root =>
    simp only [avoids_lift_bind, avoids_ite, avoids_report, not_true, imp_false]
    cases hkey : (m.keyAttribute root).value <;> simp [hkey]

theorem mem_contextAggregates {c : ContextId} {a : AggregateId} :
    a ∈ (m.contextAggregates c).value ↔ a ∈ (m.context c).value.aggregates ∨
      ∃ h ∈ (m.context c).value.modules, a ∈ (m.module h).value.aggregates := by
  simp [contextAggregates]

theorem checkBoundAggregate_clean {entity : ObjectId} {object : DomainObject} {uses : EntityUses}
    {used : ContextId} (hused : uses.boundedContext = some used) :
    (m.checkBoundAggregate entity object uses).Avoids (fun _ => True) ↔
      ∃ a root key, uses.aggregate = some a ∧ a ∈ (m.contextAggregates used).value ∧
        (m.rootKey a).value = some (root, key) := by
  unfold checkBoundAggregate
  cases uses.aggregate with
  | none => simp
  | some a =>
    simp only [checkUsedAggregate, hused]
    rw [avoids_lift_bind, avoids_ite_lift_bind, checkUsedRoot_clean]
    simp

theorem listsValueObject_iff {a : AggregateId} {o : ObjectId} :
    (m.listsValueObject a o).value = true ↔
      (m.object o).value.isValueObject = true ∧ o ∈ (m.aggregate a).value.objects := by
  cases h : (m.object o).value.isValueObject <;> simp [listsValueObject, h]

theorem checkBoundValueObject_clean {entity : ObjectId} {object : DomainObject}
    {uses : EntityUses} {a : AggregateId} (ha : uses.aggregate = some a) :
    (m.checkBoundValueObject entity object uses).Avoids (fun _ => True) ↔
      ∃ o, uses.valueObject = some o ∧ (m.object o).value.isValueObject = true ∧
        o ∈ (m.aggregate a).value.objects ∧ (m.object o).value.IsPlain := by
  unfold checkBoundValueObject
  cases uses.valueObject with
  | none => simp
  | some o =>
    simp [checkUsedValueObject, ha, avoids_lift_bind, avoids_ite_lift_bind, checkPlain_clean,
      listsValueObject_iff, and_assoc]

/-! ### Uses clauses -/

variable (m) in
/-- **Where the clauses of a binding resolve:** at the declaration that it names in the context of
the entity, or at the value object if it names none. -/
inductive BindsTo (entity : ObjectId) (uses : EntityUses) : UsesTarget → Prop where
  | antiCorruption {name : String} {owner : ContextId} {id : AntiCorruptionId}
    (named : uses.antiCorruption = some name)
    (owned : (m.contextOfObject entity).value = some owner)
    (found : (m.antiCorruptionInContext owner name).value = some id) :
    BindsTo entity uses (.antiCorruption id)
  | valueObject {o : ObjectId} (unnamed : uses.antiCorruption = none)
    (used : uses.valueObject = some o) : BindsTo entity uses (.valueObject o)

variable (m) in
/-- The target declares an attribute translation, or has an attribute, of the name and type; of
equal names the first counts. -/
def DeclaresAs (name type : String) : UsesTarget → Prop
  | .antiCorruption id =>
    ∃ t, (m.antiCorruption id).value.attributes.find? (·.name == name) = some t ∧ t.type = type
  | .valueObject o =>
    ∃ b, (m.attributeByName o name).value = some b ∧ (m.attributeOf b).value.type = type

theorem namedAntiCorruption_clean {entity : ObjectId} {uses : EntityUses}
    {owner : Option ContextId} :
    (m.namedAntiCorruption entity uses owner).Avoids (fun _ => True) ↔
      ∀ name c, uses.antiCorruption = some name → owner = some c →
        ∃ id, (m.antiCorruptionInContext c name).value = some id := by
  unfold namedAntiCorruption
  cases uses.antiCorruption with
  | none => simp
  | some name =>
    cases owner with
    | none => simp
    | some c =>
      simp only [Option.some.injEq]
      rw [avoids_lift_bind, avoids_ite_lift_bind]
      simp [← Option.ne_none_iff_exists']

theorem usesTarget_eq_some {entity : ObjectId} {uses : EntityUses} {target : UsesTarget} :
    usesTarget uses (m.namedAntiCorruption entity uses (m.contextOfObject entity).value).value =
      some target ↔ m.BindsTo entity uses target := by
  constructor
  · intro h
    cases hname : uses.antiCorruption with
    | none =>
      obtain ⟨o, ho, rfl⟩ : ∃ o, uses.valueObject = some o ∧ .valueObject o = target := by
        simpa [namedAntiCorruption, usesTarget, hname] using h
      exact .valueObject hname ho
    | some name =>
      cases howner : (m.contextOfObject entity).value with
      | none => simp [namedAntiCorruption, usesTarget, hname, howner] at h
      | some owner =>
        cases hfound : (m.antiCorruptionInContext owner name).value with
        | none => simp [namedAntiCorruption, usesTarget, hname, howner, hfound] at h
        | some id =>
          obtain rfl : .antiCorruption id = target :=
            Option.some.inj ((usesTarget_named hname howner hfound).symm.trans h)
          exact .antiCorruption hname howner hfound
  · rintro (⟨hname, howner, hfound⟩ | ⟨hname, ho⟩)
    · exact usesTarget_named hname howner hfound
    · simp [namedAntiCorruption, usesTarget, hname, ho]

theorem usedType_eq_some {name type : String} {target : UsesTarget} :
    (m.usedType target name).value.2 = some type ↔ m.DeclaresAs name type target := by
  cases target with
  | antiCorruption id => simp [usedType, DeclaresAs]
  | valueObject o =>
    cases hb : (m.attributeByName o name).value <;> simp [usedType, DeclaresAs, hb]

theorem checkUsesClause_clean {binder : String} {target : Option UsesTarget} {b : AttributeId}
    {clause : AttributeUses} :
    (m.checkUsesClause binder target b clause).Avoids (fun _ => True) ↔
      clause.binder = binder ∧ ∀ t, target = some t →
        m.DeclaresAs clause.attributeName (m.attributeOf b).value.type t := by
  rw [checkUsesClause, avoids_lift_bind, avoids_ite_bind]
  refine and_congr (by simp) ?_
  cases target with
  | none => simp
  | some t =>
    simp only [Option.some.injEq, forall_eq', ← usedType_eq_some, avoids_lift_bind]
    rcases (m.usedType t clause.attributeName).value with ⟨owner, _ | type⟩
    · simp
    · simp only [avoids_ite, avoids_report, not_true, imp_false]
      simp

theorem checkKeyTranslation_clean {entity : ObjectId} {id : AntiCorruptionId}
    {used : List String} :
    (m.checkKeyTranslation entity id used).Avoids (fun _ => True) ↔
      ∀ name, (m.keyTranslation id).value = some name → name ∈ used := by
  rw [checkKeyTranslation, avoids_lift_bind]
  cases (m.keyTranslation id).value with
  | none => simp
  | some name =>
    simp only [avoids_ite, avoids_report, not_true, imp_false]
    simp

theorem checkUsesClauses_clean {entity : ObjectId} {binder : String}
    {target : Option UsesTarget} :
    (m.checkUsesClauses entity binder target).Avoids (fun _ => True) ↔
      (∀ b ∈ (m.object entity).value.attributes, ∀ clause,
        (m.attributeOf b).value.uses = some clause → clause.binder = binder ∧
          ∀ t, target = some t → m.DeclaresAs clause.attributeName (m.attributeOf b).value.type t) ∧
      ∀ id, target = some (.antiCorruption id) → ∀ name, (m.keyTranslation id).value = some name →
        m.UsesName entity name := by
  rw [checkUsesClauses, avoids_lift_bind, avoids_bind, avoids_each]
  refine and_congr ?_ ?_
  · simp only [Prod.forall, mem_usesClauses, and_imp, checkUsesClause_clean]
    exact forall_congr' fun b => forall_comm
  · rcases target with _ | id | o
    · simp
    · simp [checkKeyTranslation_clean, mem_usedNames]
    · simp

/-! ### Well-bound entities -/

variable (m) in
/-- **A well-bound entity.** What its clauses name is declared with their type wherever the binding
resolves them, and the translation that is linked to the key is used. -/
structure WellBound (entity : ObjectId) (uses : EntityUses) : Prop where
  not_root : (m.object entity).value.aggregateRoot = false
  context : ∃ used, uses.boundedContext = some used ∧
    ∀ owner, (m.contextOfObject entity).value = some owner → m.MayUse owner used
  aggregate : ∃ used a root key, uses.boundedContext = some used ∧ uses.aggregate = some a ∧
    (a ∈ (m.context used).value.aggregates ∨
      ∃ h ∈ (m.context used).value.modules, a ∈ (m.module h).value.aggregates) ∧
    (m.rootKey a).value = some (root, key)
  valueObject : ∃ a o, uses.aggregate = some a ∧ uses.valueObject = some o ∧
    (m.object o).value.isValueObject = true ∧ o ∈ (m.aggregate a).value.objects ∧
    (m.object o).value.IsPlain
  antiCorruption : ∀ name owner, uses.antiCorruption = some name →
    (m.contextOfObject entity).value = some owner →
    ∃ id, (m.antiCorruptionInContext owner name).value = some id
  clauses : ∀ b ∈ (m.object entity).value.attributes, ∀ clause,
    (m.attributeOf b).value.uses = some clause → clause.binder = uses.binder ∧
      ∀ target, m.BindsTo entity uses target →
        m.DeclaresAs clause.attributeName (m.attributeOf b).value.type target
  key : ∀ id, m.BindsTo entity uses (.antiCorruption id) → ∀ name,
    (m.keyTranslation id).value = some name → m.UsesName entity name

theorem checkUsesBinding_clean {entity : ObjectId} {uses : EntityUses} :
    (m.checkUsesBinding entity uses).Avoids (fun _ => True) ↔ m.WellBound entity uses := by
  rw [checkUsesBinding, avoids_lift_bind, avoids_ite_bind, avoids_lift_bind, avoids_bind,
    avoids_bind, avoids_bind, avoids_bind, checkBoundContext_clean, namedAntiCorruption_clean,
    checkUsesClauses_clean]
  simp only [usesTarget_eq_some]
  constructor
  · rintro ⟨hroot, ⟨used, hused, huse⟩, haggregate, hvalueObject, hanti, hclauses, hkey⟩
    obtain ⟨a, root, key, ha, hlists, hrootKey⟩ := (checkBoundAggregate_clean hused).mp haggregate
    obtain ⟨o, ho⟩ := (checkBoundValueObject_clean ha).mp hvalueObject
    exact ⟨by simpa using hroot, ⟨used, hused, huse⟩,
      ⟨used, a, root, key, hused, ha, mem_contextAggregates.mp hlists, hrootKey⟩, ⟨a, o, ha, ho⟩,
      hanti, hclauses, hkey⟩
  · rintro ⟨hroot, hcontext, ⟨used, a, root, key, hused, ha, hlists, hrootKey⟩, ⟨b, o, hb, ho⟩,
      hanti, hclauses, hkey⟩
    exact ⟨by simp [hroot], hcontext,
      (checkBoundAggregate_clean hused).mpr
        ⟨a, root, key, ha, mem_contextAggregates.mpr hlists, hrootKey⟩,
      (checkBoundValueObject_clean hb).mpr ⟨o, ho⟩, hanti, hclauses, hkey⟩

/-- In a known context the clauses of a well-bound entity resolve somewhere. -/
theorem WellBound.bindsTo {entity : ObjectId} {uses : EntityUses} (h : m.WellBound entity uses)
    {owner : ContextId} (howner : (m.contextOfObject entity).value = some owner) :
    ∃ target, m.BindsTo entity uses target := by
  cases hname : uses.antiCorruption with
  | none =>
    obtain ⟨-, o, -, ho, -⟩ := h.valueObject
    exact ⟨_, .valueObject hname ho⟩
  | some name =>
    obtain ⟨id, hfound⟩ := h.antiCorruption name owner hname howner
    exact ⟨_, .antiCorruption hname howner hfound⟩

/-- **The clean bindings are the well-bound ones.** Their clauses resolve wherever the context of
the entity is known. Their value object has one constructor, or two if it has a declared constructor
and an operation. -/
theorem usesBinding_clean_iff_wellBound (m : Model) {entity : ObjectId} {uses : EntityUses}
    (huses : (m.object entity).value.uses? = some uses) :
    ((m.checkEntity entity).findings = [] ↔ m.WellBound entity uses) ∧
      (m.WellBound entity uses →
        (∀ owner, (m.contextOfObject entity).value = some owner →
          ∃ target, m.BindsTo entity uses target) ∧
        ∀ o, uses.valueObject = some o →
          (m.object o).value.constructors =
            if (m.object o).value.constructor.isSome && !(m.object o).value.operations.isEmpty
            then 2 else 1) := by
  refine ⟨?_, fun h => ⟨fun _ => h.bindsTo, fun o ho => ?_⟩⟩
  · obtain ⟨data, hdata, hdatauses⟩ := Option.bind_eq_some_iff.mp huses
    rw [findings_eq_nil_iff, checkEntity, avoids_lift_bind, hdata]
    simp only [hdatauses, checkUsesBinding_clean]
  · obtain ⟨-, b, -, hb, -, -, hplain⟩ := h.valueObject
    obtain rfl : b = o := Option.some.inj (hb.symm.trans ho)
    exact hplain.constructors_eq

theorem usesBinding_clean_iff_wellBound_customers :
    let m := boundCustomers ⟨0⟩ (some ⟨"address", "client"⟩)
    let uses : EntityUses := ⟨some ⟨0⟩, some ⟨0⟩, some ⟨2⟩, some "ClientAcl", "address"⟩
    (m.object ⟨3⟩).value.uses? = some uses ∧
      ((m.checkEntity ⟨3⟩).findings = [] ↔ m.WellBound ⟨3⟩ uses) ∧
      m.WellBound ⟨3⟩ uses ∧ (∃ target, m.BindsTo ⟨3⟩ uses target) ∧
      (m.object ⟨2⟩).value.constructors = 1 := by
  intro m uses
  have huses : (m.object ⟨3⟩).value.uses? = some uses := rfl
  obtain ⟨hiff, hbound⟩ := m.usesBinding_clean_iff_wellBound huses
  have hwell := hiff.mp (by decide)
  obtain ⟨htarget, hone⟩ := hbound hwell
  have howner : (m.contextOfObject ⟨3⟩).value = some ⟨1⟩ := by decide
  exact ⟨huses, hiff, hwell, htarget ⟨1⟩ howner, hone ⟨2⟩ rfl⟩

/-- An operation that makes an address from its client, as the declared constructor does. -/
def addressOperation : Operation :=
  ⟨"Address", [⟨"client", ⟨.none, .domainObject (some ⟨0⟩)⟩⟩], none,
    [.assignment ⟨none, ["owner"]⟩ ⟨⟨1⟩, .path (.variable "client") ["clientId"] []⟩]⟩

/-- Customers of Sales use the address of CRM, which has operations besides its constructor. -/
def operatedSales (operations : List Operation) : Model :=
  { mappedSales [] with
    objects := (mappedSales []).objects.modify 1 fun o => { o with operations := operations } }

/-- **A declared constructor and an operation are not counted together:** of two operations that are
constructors one is too many, beside the declared constructor one passes. -/
theorem constructed_twice_of_clean :
    ((operatedSales [addressOperation, addressOperation]).checkEntity ⟨2⟩).Reports
        (.valueObjectTooRich "Address") ∧
      let m := operatedSales [addressOperation]
      m.InRange ∧ (m.analyze .default).value.hasErrors = false ∧
        (m.checkEntity ⟨2⟩).findings = [] ∧ (m.object ⟨1⟩).value.constructors = 2 :=
  ⟨by decide, linked_iff_inRange.mp (by decide), by decide, by decide, by decide⟩

end Model
end DomainModel
