import DomainModel.Proofs.Clean.Coverage

/-! # Well-formed constructors

A constructor is well formed (`m.WellFormedConstructor`) if it takes primitives and single entities
of the aggregate, among them the root entity where a value object is made, if it copies the key of
the first root that it takes (events need not), if it assigns every declared attribute once and
nothing else, and if every right side has a type that goes with the attribute.

The rules on the constructor accept exactly these constructors (`constructor_clean_iff_wellFormed`).
Each rule is an equivalence of its own. -/

namespace DomainModel.Model

open Check

/-! ### Parameters -/

/-- The parameter is a primitive, or a single entity of the aggregate. -/
inductive PlainParameter (m : Model) (a : AggregateId) (p : Parameter) : Prop where
  | primitive {name : String} (target : p.type.target = .primitive name)
  | entity {e : ObjectId} (type : p.type = ⟨.none, .domainObject (some e)⟩)
    (listed : e ∈ (m.aggregate a).value.objects) (isEntity : (m.object e).value.isEntity = true)

/-- The parameter takes the root entity of the aggregate. -/
def TakesRoot (m : Model) (a : AggregateId) (p : Parameter) : Prop :=
  ∃ root, (m.rootEntity a).value = some root ∧ p.type = ⟨.none, .domainObject (some root)⟩

/-- The parameter is the first one that takes the root entity. -/
def TakesRootFirst (m : Model) (a : AggregateId) (parameters : List Parameter) (p : Parameter) :
    Prop :=
  m.TakesRoot a p ∧ ∃ before after, parameters = before ++ p :: after ∧
    ∀ q ∈ before, ¬m.TakesRoot a q

variable {m : Model}

theorem acceptsParameter_iff {a : AggregateId} {p : Parameter} :
    (m.acceptsParameter .constructor a p).value = true ↔ m.PlainParameter a p := by
  obtain ⟨name, kind, target⟩ := p
  unfold acceptsParameter
  constructor
  · intro h
    match target with
    | .primitive _ => exact .primitive rfl
    | .domainObject none => cases h
    | .domainObject (some e) =>
      cases kind <;> simp [CollectionKind.isCollection] at h
      split at h
      · next hlisted => exact .entity rfl hlisted (by simpa using h)
      · cases h
  · rintro (⟨htarget⟩ | ⟨htype, hlisted, hentity⟩)
    · cases htarget
      rfl
    · cases htype
      simp [CollectionKind.isCollection, hlisted, hentity]

theorem isRootParameter_iff {a : AggregateId} {p : Parameter} :
    (m.isRootParameter a p).value = true ↔ m.TakesRoot a p := by
  obtain ⟨name, kind, target⟩ := p
  unfold isRootParameter TakesRoot
  match target with
  | .primitive _ => simp
  | .domainObject none => simp
  | .domainObject (some e) => cases kind <;> simp [CollectionKind.isCollection]

theorem find?_isRootParameter_eq_some_iff {a : AggregateId} {parameters : List Parameter}
    {p : Parameter} :
    (Lookup.find? (m.isRootParameter a) parameters).value = some p ↔
      m.TakesRootFirst a parameters p := by
  simp [List.find?_eq_some_iff_append, TakesRootFirst, ← isRootParameter_iff]

theorem avoids_checkParameters {o : ObjectId} {object : DomainObject}
    {parameters : List Parameter} :
    (m.checkParameters (.constructor o) object parameters).Avoids (fun _ => True) ↔
      (∀ p ∈ parameters, m.PlainParameter object.aggregate p) ∧
        (object.isValueObject = true → ∃ p ∈ parameters, m.TakesRoot object.aggregate p) := by
  rw [checkParameters, avoids_bind, avoids_eachIdx]
  simp only [avoids_lift_bind, avoids_ite, avoids_report, not_true, imp_false, Callable.kind,
    Bool.not_eq_true', Bool.not_eq_false, acceptsParameter_iff, Lookup.value_any, List.any_eq_true,
    isRootParameter_iff]
  refine and_congr_left fun _ => ?_
  simp only [List.mem_iff_getElem?]
  constructor
  · rintro h p ⟨i, hi⟩
    exact h i p hi
  · exact fun h i p hi => h p ⟨i, hi⟩

/-! ### The key of the root entity -/

/-- The expression is the path `name.property`, with any methods behind it. -/
def CopiesProperty (name property : String) (e : Expr) : Prop :=
  ∃ methods, e.form = .path (.variable name) [property] methods

theorem isOneStepPath_iff {name property : String} {e : Expr} :
    (isOneStepPath name property e).value = true ↔ CopiesProperty name property e := by
  unfold isOneStepPath CopiesProperty
  cases e.form with
  | path head properties methods =>
    match properties with
    | [] => simp
    | [first] => by_cases h : head = .variable name <;> simp [h, Lookup.item]
    | _ :: _ :: _ => simp
  | _ => simp

/-- **The key:** if there is a root with a key, the first parameter that takes it has the key
copied. -/
theorem avoids_checkKeyAssigned {callable : Callable} {object : DomainObject}
    {parameters : List Parameter} {assignments : List Assigned} :
    (m.checkKeyAssigned callable object parameters assignments).Avoids (fun _ => True) ↔
      (object.kind.isDomainEvent = false → ∀ root key p,
        (m.rootEntity object.aggregate).value = some root →
        (m.keyAttribute root).value = some key →
        m.TakesRootFirst object.aggregate parameters p →
        ∃ a ∈ assignments, CopiesProperty p.name (m.attributeOf key).value.name a.expression) := by
  cases hevent : object.kind.isDomainEvent with
  | true => simp [checkKeyAssigned, hevent]
  | false =>
    simp only [checkKeyAssigned, hevent, Bool.false_eq_true, if_false, avoids_lift_bind,
      forall_const, ← find?_isRootParameter_eq_some_iff]
    cases hfound : (m.rootKey object.aggregate).value with
    | none =>
      refine iff_of_true avoids_pure fun root key p hroot hkey => ?_
      rw [m.rootKey_eq_some.mpr ⟨hroot, hkey⟩] at hfound
      cases hfound
    | some found =>
      obtain ⟨root, key⟩ := found
      obtain ⟨hroot, hkey⟩ := m.rootKey_eq_some.mp hfound
      rw [avoids_lift_bind, hroot]
      cases (Lookup.find? (m.isRootParameter object.aggregate) parameters).value with
      | none => simp
      | some p =>
        simp only [avoids_lift_bind, avoids_ite, avoids_report, not_true, imp_false,
          Bool.not_eq_true', Bool.not_eq_false, Lookup.value_any, List.any_eq_true,
          isOneStepPath_iff]
        constructor
        · rintro h root' key' p' ⟨⟩ hkey' ⟨⟩
          obtain rfl : key = key' := Option.some.inj (hkey.symm.trans hkey')
          exact h
        · exact fun h => h root key p rfl hkey rfl

/-! ### Types -/

/-- The right side has a type that goes with the attribute, which is declared. -/
def FitsAttribute (m : Model) (policy : TernaryPolicy) (o : ObjectId) (parameters : List Parameter)
    (attributeName : String) (e : Expr) : Prop :=
  let a := (m.object o).value.aggregate
  let inferred := m.inferType (some a) policy (m.parameterScope parameters).value
    .constructorAssignment e
  inferred.findings = [] ∧ ∃ b, (m.attributeByName o attributeName).value = some b ∧
    Ty.compatible (m.entityNames a).value inferred.value
      (.primitive (m.attributeOf b).value.type) = true

theorem value_expectedType {o : ObjectId} {name : String} :
    (m.expectedType o name).value =
      (m.attributeByName o name).value.map fun b => .primitive (m.attributeOf b).value.type := by
  rw [expectedType, Lookup.value_bind]
  cases (m.attributeByName o name).value <;> rfl

/-- **Types:** where all assigned attributes are declared, every right side fits its attribute. -/
theorem avoids_checkAssignmentTypes {policy : TernaryPolicy} {callable : Callable} {o : ObjectId}
    {parameters : List Parameter} {assignments : List Assigned}
    (hdeclared : ∀ a ∈ assignments, a.attributeName ∈ m.attributeNames o) :
    (m.checkAssignmentTypes policy callable o parameters assignments).Avoids (fun _ => True) ↔
      ∀ a ∈ assignments, m.FitsAttribute policy o parameters a.attributeName a.expression := by
  simp only [checkAssignmentTypes, avoids_lift_bind, avoids_each]
  refine forall₂_congr fun a ha => ?_
  have hsome := mt isNone_attributeByName.mp (not_not.mpr (hdeclared a ha))
  obtain ⟨b, hb⟩ := Option.ne_none_iff_exists'.mp (mt Option.isNone_iff_eq_none.mpr hsome)
  rw [value_expectedType, hb]
  simp only [FitsAttribute, inferType, findings_eq_nil_iff, hb, avoids_bind, avoids_lift, true_and,
    Option.map_some, avoids_ite, avoids_report, not_true, imp_false, Bool.not_eq_true',
    Bool.not_eq_false, Option.some.injEq, exists_eq_left']
  exact Iff.rfl

/-- Coverage sees to it that all assigned attributes are declared. -/
theorem avoids_coverage_and_types {policy : TernaryPolicy} {callable : Callable} {o : ObjectId}
    {parameters : List Parameter} {assignments : List Assigned} :
    (m.checkCoverage callable o assignments).Avoids (fun _ => True) ∧
        (m.checkAssignmentTypes policy callable o parameters assignments).Avoids (fun _ => True) ↔
      (assignments.map (·.attributeName)).Nodup ∧
        (∀ name, name ∈ assignments.map (·.attributeName) ↔ name ∈ m.attributeNames o) ∧
        ∀ a ∈ assignments, m.FitsAttribute policy o parameters a.attributeName a.expression := by
  rw [avoids_checkCoverage, and_assoc]
  refine and_congr_right fun _ => and_congr_right fun hnames => ?_
  exact avoids_checkAssignmentTypes fun a ha => (hnames _).mp (List.mem_map_of_mem ha)

/-! ### Constructors -/

/-- The constructor of the object is in order. -/
structure WellFormedConstructor (m : Model) (policy : TernaryPolicy) (o : ObjectId)
    (c : Constructor) : Prop where
  parameters : ∀ p ∈ c.parameters, m.PlainParameter (m.object o).value.aggregate p
  root_parameter : (m.object o).value.isValueObject = true →
    ∃ p ∈ c.parameters, m.TakesRoot (m.object o).value.aggregate p
  key_copied : (m.object o).value.kind.isDomainEvent = false → ∀ root key p,
    (m.rootEntity (m.object o).value.aggregate).value = some root →
    (m.keyAttribute root).value = some key →
    m.TakesRootFirst (m.object o).value.aggregate c.parameters p →
    ∃ x ∈ c.assignments, CopiesProperty p.name (m.attributeOf key).value.name x.expression
  names_nodup : (c.assignments.map (·.attributeName)).Nodup
  names_declared : ∀ name, name ∈ c.assignments.map (·.attributeName) ↔ name ∈ m.attributeNames o
  fits : ∀ x ∈ c.assignments, m.FitsAttribute policy o c.parameters x.attributeName x.expression

/-- The assignments that the rules see are those of the constructor. -/
theorem map_assigned (c : Constructor) :
    (c.assigned.map fun a => (⟨a.attributeName, a.expression⟩ : ConstructorAssignment)) =
      c.assignments := by
  simp [Constructor.assigned, Function.comp_def]

theorem forall_assigned {c : Constructor} {P : String → Expr → Prop} :
    (∀ a ∈ c.assigned, P a.attributeName a.expression) ↔
      ∀ x ∈ c.assignments, P x.attributeName x.expression := by
  rw [← map_assigned c, List.forall_mem_map]

theorem exists_assigned {c : Constructor} {P : Expr → Prop} :
    (∃ a ∈ c.assigned, P a.expression) ↔ ∃ x ∈ c.assignments, P x.expression := by
  simp [← map_assigned c]

theorem map_attributeName_constructor (c : Constructor) :
    c.assigned.map (·.attributeName) = c.assignments.map (·.attributeName) := by
  rw [← map_assigned c, List.map_map]
  rfl

/-- **The constructors about which nothing is reported are the well-formed ones.** -/
theorem constructor_clean_iff_wellFormed {policy : TernaryPolicy} {o : ObjectId} {c : Constructor}
    (h : (m.object o).value.constructor = some c) :
    (m.checkConstructor policy o).findings = [] ↔ m.WellFormedConstructor policy o c := by
  rw [findings_eq_nil_iff, checkConstructor, avoids_lift_bind, h]
  simp only [checkBody, avoids_bind, avoids_lift, value_lift, true_and, avoids_checkParameters,
    avoids_checkKeyAssigned, avoids_coverage_and_types, map_attributeName_constructor,
    exists_assigned, forall_assigned]
  constructor
  · rintro ⟨⟨hparameters, hroot⟩, hkey, hnodup, hnames, hfits⟩
    exact ⟨hparameters, hroot, hkey, hnodup, hnames, hfits⟩
  · rintro ⟨hparameters, hroot, hkey, hnodup, hnames, hfits⟩
    exact ⟨⟨hparameters, hroot⟩, hkey, hnodup, hnames, hfits⟩

/-- A balance of an account is made from the account and an amount. It takes over the given
property of the account. -/
def balances (property : String) : Model :=
  { Model.empty with
    aggregates := [⟨"Accounts", none, [⟨0⟩, ⟨1⟩], []⟩]
    objects :=
      [⟨"Account", ⟨0⟩, .entity ⟨none, none⟩, true, [⟨0⟩, ⟨1⟩], [], none, none, []⟩,
        ⟨"Balance", ⟨0⟩, .valueObject, false, [⟨2⟩, ⟨3⟩], [],
          some ⟨[⟨"account", ⟨.none, .domainObject (some ⟨0⟩)⟩⟩,
              ⟨"amount", ⟨.none, .primitive "Double"⟩⟩],
            [⟨"account", ⟨⟨0⟩, .path (.variable "account") [property] []⟩⟩,
              ⟨"amount", ⟨⟨1⟩, .path (.variable "amount") [] []⟩⟩]⟩,
          none, []⟩]
    attributes :=
      [⟨"id", "String", ⟨0⟩, true, none⟩, ⟨"owner", "String", ⟨0⟩, false, none⟩,
        ⟨"account", "String", ⟨1⟩, false, none⟩, ⟨"amount", "Double", ⟨1⟩, false, none⟩] }

/-- The id of the account is its key, and the owner is not. -/
theorem constructor_clean_iff_wellFormed_balances :
    (let m := balances "id"
      ∃ c, (m.object ⟨1⟩).value.constructor = some c ∧ m.WellFormedConstructor .boolean ⟨1⟩ c) ∧
    (let m := balances "owner"
      ∃ c, (m.object ⟨1⟩).value.constructor = some c ∧
        ¬m.WellFormedConstructor .boolean ⟨1⟩ c) := by
  constructor
  · intro m
    have clean : (m.checkConstructor .boolean ⟨1⟩).findings = [] := by decide
    exact ⟨_, rfl, (constructor_clean_iff_wellFormed rfl).mp clean⟩
  · intro m
    have blamed : (m.checkConstructor .boolean ⟨1⟩).findings ≠ [] := by decide
    exact ⟨_, rfl, fun well => blamed ((constructor_clean_iff_wellFormed rfl).mpr well)⟩

end DomainModel.Model
