import DomainModel.Expr.Build
import DomainModel.Proofs.Clean.Coverage
import DomainModel.Proofs.Typing.Agreement

/-! # One set of rules for constructors and operations

An operation named after its object is checked like a constructor. Take the body of a constructor,
write it as an operation, each `a = e` as `this.a = e`, and the same is reported, in the same order
and at the corresponding places; only the messages about parameters name an operation and say what
an operation accepts (`Model.checkOperation_mirrors_checkConstructor`). Operations accept all domain
objects and constructors only entities, so this holds where the parameters are no other objects.

The two bodies may stand in one model or in two models that only differ in bodies: the rules do not
look at any constructor or operation but the one they check, and see of the model its outline.

`Finding.inOperation` translates what is found in the constructor. -/

namespace DomainModel

/-! ### Models without bodies -/

/-- The object without its constructor and its operations. -/
def DomainObject.outline (o : DomainObject) : DomainObject :=
  { o with constructor := none, operations := [] }

/-- The model without constructors and operations. -/
def Model.outline (m : Model) : Model := { m with objects := m.objects.map DomainObject.outline }

namespace Model

variable {m' m : Model}

theorem value_object_outline (m : Model) (o : ObjectId) :
    (m.outline.object o).value = (m.object o).value.outline := by
  unfold object outline Lookup.node
  simp only [List.getElem?_map]
  cases m.objects[o.index]? with
  | none => rfl
  | some found => rfl

section

variable (h : m'.outline = m.outline)

include h

/-- What does not depend on bodies is the same of an object in both models. -/
theorem object_of_outline {α : Type} (p : DomainObject → α) (hp : ∀ x, p x.outline = p x)
    (o : ObjectId) : p (m'.object o).value = p (m.object o).value := by
  rw [← hp (m'.object o).value, ← value_object_outline, h, value_object_outline, hp]

theorem name_of_outline (o : ObjectId) : (m'.object o).value.name = (m.object o).value.name :=
  object_of_outline h DomainObject.name (fun _ => rfl) o

theorem owner_of_outline (o : ObjectId) :
    (m'.object o).value.aggregate = (m.object o).value.aggregate :=
  object_of_outline h DomainObject.aggregate (fun _ => rfl) o

theorem attributes_of_outline (o : ObjectId) :
    (m'.object o).value.attributes = (m.object o).value.attributes :=
  object_of_outline h DomainObject.attributes (fun _ => rfl) o

theorem aggregate_of_outline (a : AggregateId) : m'.aggregate a = m.aggregate a := by
  have haggregate : m'.outline.aggregate a = m.outline.aggregate a := by rw [h]
  exact haggregate

theorem attributeOf_of_outline (a : AttributeId) : m'.attributeOf a = m.attributeOf a := by
  have hattribute : m'.outline.attributeOf a = m.outline.attributeOf a := by rw [h]
  exact hattribute

theorem reference_of_outline (r : ReferenceId) : m'.reference r = m.reference r := by
  have hreference : m'.outline.reference r = m.outline.reference r := by rw [h]
  exact hreference

theorem attributeByName_of_outline (o : ObjectId) (name : String) :
    (m'.attributeByName o name).value = (m.attributeByName o name).value := by
  simp only [attributeByName, Lookup.value_bind, Lookup.value_find?, Lookup.value_pure,
    attributes_of_outline h, attributeOf_of_outline h]

theorem referenceByName_of_outline (o : ObjectId) (name : String) :
    (m'.referenceByName o name).value = (m.referenceByName o name).value := by
  have hreferences : (m'.object o).value.references = (m.object o).value.references :=
    object_of_outline h DomainObject.references (fun _ => rfl) o
  simp only [referenceByName, Lookup.value_bind, Lookup.value_find?, Lookup.value_pure,
    hreferences, reference_of_outline h]

theorem rootEntity_of_outline (a : AggregateId) :
    (m'.rootEntity a).value = (m.rootEntity a).value := by
  have hroot : ∀ o, (m'.object o).value.isRootEntity = (m.object o).value.isRootEntity :=
    object_of_outline h DomainObject.isRootEntity fun _ => rfl
  simp only [rootEntity, Lookup.value_bind, Lookup.value_find?, Lookup.value_pure,
    aggregate_of_outline h, hroot]

theorem stepsAlike_of_outline : m'.StepsAlike m where
  name := name_of_outline h
  propertyOwner o :=
    object_of_outline h (fun x => (x.uses?.bind (·.valueObject)).getD o) (fun _ => rfl) o
  attributeByName := attributeByName_of_outline h
  referenceByName := referenceByName_of_outline h
  attributeOf a := by rw [attributeOf_of_outline h]
  reference r := by rw [reference_of_outline h]

/-- **Expressions see of a model its outline.** -/
theorem agrees_of_outline : m'.Agrees m where
  ids := by
    have hids : m'.outline.objectIds = m.outline.objectIds := by rw [h]
    simpa [objectIds, outline] using hids
  name := name_of_outline h
  isEntity := object_of_outline h DomainObject.isEntity fun _ => rfl
  repository := object_of_outline h DomainObject.repository fun _ => rfl
  rootEntity := rootEntity_of_outline h
  objectByName a name := by
    simp only [objectByName, Lookup.value_bind, Lookup.value_find?, Lookup.value_pure,
      aggregate_of_outline h, name_of_outline h]
  lists a o := by rw [aggregate_of_outline h]
  entityName a name := by
    have hentity : ∀ o, (m'.object o).value.isEntity = (m.object o).value.isEntity :=
      object_of_outline h DomainObject.isEntity fun _ => rfl
    simp only [entityNames, Lookup.value_bind, Lookup.value_pure, Lookup.value_map,
      aggregate_of_outline h, List.filter_map, List.map_map, Function.comp_def, hentity,
      name_of_outline h]
  walk := (stepsAlike_of_outline h).walkFrom 0

end

end Model

/-! ### From constructors to operations -/

/-- What is said about the parameters of a constructor, said about those of an operation. -/
def Problem.inOperation : Problem → Problem
  | parameterType _ => parameterType .operation
  | rootParameterMissing _ => rootParameterMissing .operation
  | problem => problem

/-- The operation at a position in place of the constructor of its object. -/
def Callable.inOperation (index : Nat) : Callable → Callable
  | constructor o => operation o index
  | callable => callable

/-- The place in the operation that corresponds to a place in the constructor. -/
def NodeRef.inOperation (index : Nat) : NodeRef → NodeRef
  | callable c => callable (c.inOperation index)
  | parameter c i => parameter (c.inOperation index) i
  | assignment c i => assignment (c.inOperation index) i
  | node => node

/-- An assignment of a constructor names the attribute, a command has it on its left side. -/
def Feature.inOperation : Feature → Feature
  | .attribute => leftValue
  | feature => feature

/-- **What is found in a constructor, as it is found in the operation at a position.** In an
expression nothing changes but the numbers of the nodes. -/
def Finding.inOperation (index : Nat) (f : ExprId → ExprId) : Finding → Finding
  | ⟨problem, .expr id, feature, i⟩ => ⟨problem, .expr (f id), feature, i⟩
  | ⟨problem, node, feature, i⟩ =>
    ⟨problem.inOperation, node.inOperation index, feature.inOperation, i⟩

/-- The assignments of a constructor as commands: `a = e` becomes `this.a = e`. -/
def Constructor.commands (f : ExprId → ExprId) (c : Constructor) : List Command :=
  c.assignments.map fun a => .assignment ⟨none, [a.attributeName]⟩ (a.expression.renumbered f)

/-- The assignment with other numbers. -/
def Assigned.renumbered (f : ExprId → ExprId) (a : Assigned) : Assigned :=
  { a with expression := a.expression.renumbered f }

theorem Operation.assigned_of_commands {operation : Operation} {c : Constructor}
    {f : ExprId → ExprId} (body : operation.commands = c.commands f) :
    operation.assigned = c.assigned.map (Assigned.renumbered f) := by
  unfold assigned Constructor.assigned
  rw [body, Constructor.commands]
  generalize 0 = next
  induction c.assignments generalizing next with
  | nil => rfl
  | cons a as ih => exact congrArg _ (ih (next + 1))

/-! ### From one body to another -/

/-- The map takes what is found in the body of one callable to the corresponding places of another
one with the same body. In an expression it changes nothing but the numbers of the nodes. -/
structure TranslatesBody (g : Finding → Finding) (f : ExprId → ExprId)
    (callable' callable : Callable) : Prop where
  numbers : Env.Renumbers f g
  whole : ∀ problem : Problem, problem.inOperation = problem →
    g ⟨problem, .callable callable, .name, none⟩ = ⟨problem, .callable callable', .name, none⟩
  target : ∀ (problem : Problem) (i : Nat), problem.inOperation = problem →
    g ⟨problem, .assignment callable i, callable.kind.targetFeature, none⟩ =
      ⟨problem, .assignment callable' i, callable'.kind.targetFeature, none⟩
  expression : ∀ (problem : Problem) (i : Nat), problem.inOperation = problem →
    g ⟨problem, .assignment callable i, .expression, none⟩ =
      ⟨problem, .assignment callable' i, .expression, none⟩

theorem translatesBody_inOperation (index : Nat) (f : ExprId → ExprId) (o : ObjectId) :
    TranslatesBody (Finding.inOperation index f) f (.operation o index) (.constructor o) where
  numbers _ _ _ _ := rfl
  whole _ h := congrArg (fun p => (⟨p, ⟨.callable (.operation o index), .name, none⟩⟩ : Finding)) h
  target _ i h := congrArg
    (fun p => (⟨p, ⟨.assignment (.operation o index) i, .leftValue, none⟩⟩ : Finding)) h
  expression _ i h := congrArg
    (fun p => (⟨p, ⟨.assignment (.operation o index) i, .expression, none⟩⟩ : Finding)) h

namespace Model

open Check

variable {m' m : Model} {g : Finding → Finding} {f : ExprId → ExprId} {index : Nat}
  {callable' callable : Callable}

theorem repeatedAssignments_renumbered (f : ExprId → ExprId) (seen : List String)
    (as : List Assigned) :
    repeatedAssignments seen (as.map (Assigned.renumbered f)) =
      (repeatedAssignments seen as).map (Assigned.renumbered f) := by
  induction as generalizing seen with
  | nil => rfl
  | cons a as ih =>
    rw [List.map_cons, repeatedAssignments, repeatedAssignments, ih, ih]
    change (if seen.contains a.attributeName then _ else _) = _
    split <;> rfl

theorem value_isOneStepPath_renumbered (name property : String) (e : Expr) :
    (isOneStepPath name property (e.renumbered f)).value =
      (isOneStepPath name property e).value := by
  obtain ⟨id, form⟩ := e
  cases form with
  | _ => rfl

/-- Assignments to `this` are the commands that there should be. -/
theorem findings_checkCommands (callable : Callable) (c : Constructor) :
    (checkCommands callable (c.commands f)).findings = [] := by
  rw [findings_eq_nil_iff, avoids_checkCommands]
  intro command hcommand
  obtain ⟨a, _, rfl⟩ := List.mem_map.mp hcommand
  exact ⟨_, _, rfl, rfl⟩

/-- Every object that a parameter takes is an entity. -/
def TakesEntities (m : Model) (parameters : List Parameter) : Prop :=
  ∀ p ∈ parameters, ∀ o, p.type.target = .domainObject (some o) →
    (m.object o).value.isEntity = true

/-- An operation accepts the parameters of a constructor, if they are no other objects. -/
theorem acceptsParameter_operation (a : AggregateId) {p : Parameter}
    (entity : ∀ o, p.type.target = .domainObject (some o) → (m.object o).value.isEntity = true) :
    (m.acceptsParameter .operation a p).value = (m.acceptsParameter .constructor a p).value := by
  unfold acceptsParameter
  cases htarget : p.type.target with
  | primitive name => rfl
  | domainObject target =>
    cases target with
    | none => rfl
    | some o =>
      dsimp only
      split
      · rfl
      · rw [Lookup.value_bind, Lookup.value_bind]
        split
        · rfl
        · exact (entity o htarget).symm

section

variable (h : m'.outline = m.outline)

include h

/-! ### Parameters -/

theorem acceptsParameter_of_outline (kind : CallableKind) (a : AggregateId) (p : Parameter) :
    (m'.acceptsParameter kind a p).value = (m.acceptsParameter kind a p).value := by
  have hentity : ∀ o, (m'.object o).value.isEntity = (m.object o).value.isEntity :=
    object_of_outline h DomainObject.isEntity fun _ => rfl
  unfold acceptsParameter
  split
  · rfl
  · rfl
  · split
    · rfl
    · rw [Lookup.value_bind, Lookup.value_bind, aggregate_of_outline h]
      split
      · rfl
      · cases kind with
        | constructor => exact hentity _
        | operation => rfl

theorem isRootParameter_of_outline (a : AggregateId) (p : Parameter) :
    (m'.isRootParameter a p).value = (m.isRootParameter a p).value := by
  unfold isRootParameter
  split
  · split
    · rfl
    · rw [Lookup.value_bind, Lookup.value_bind, rootEntity_of_outline h]
  · rfl

theorem follows_checkParameters (o : ObjectId) {parameters : List Parameter}
    (entities : m.TakesEntities parameters) :
    (m'.checkParameters (.operation o index) (m'.object o).value parameters).Follows
      (Finding.inOperation index f)
      (m.checkParameters (.constructor o) (m.object o).value parameters) := by
  have hvalueObject : (m'.object o).value.isValueObject = (m.object o).value.isValueObject :=
    object_of_outline h DomainObject.isValueObject (fun _ => rfl) o
  unfold checkParameters
  rw [owner_of_outline h, hvalueObject]
  refine Follows.bind (follows_eachIdx fun p hp i => ?_) fun _ => Follows.ite ?_ _
  · refine follows_lift_bind ?_ fun accepted => (follows_report rfl).ite _
    exact (acceptsParameter_of_outline h _ _ p).trans (acceptsParameter_operation _ (entities p hp))
  · refine follows_lift_bind ?_ fun found => (follows_report rfl).ite _
    simp only [Lookup.value_any, isRootParameter_of_outline h]

/-! ### Assignments -/

theorem rootKey_of_outline (a : AggregateId) : (m'.rootKey a).value = (m.rootKey a).value := by
  have hkey : ∀ o, (m'.keyAttribute o).value = (m.keyAttribute o).value := by
    intro o
    simp only [keyAttribute, Lookup.value_bind, Lookup.value_find?, Lookup.value_pure,
      attributes_of_outline h, attributeOf_of_outline h]
  unfold rootKey
  rw [Lookup.value_bind, Lookup.value_bind, rootEntity_of_outline h]
  cases (m.rootEntity a).value with
  | none => rfl
  | some root => simp only [Lookup.value_bind, Lookup.value_pure, hkey]

theorem follows_checkKeyAssigned (ht : TranslatesBody g f callable' callable) (o : ObjectId)
    (parameters : List Parameter) (assignments : List Assigned) :
    (m'.checkKeyAssigned callable' (m'.object o).value parameters
        (assignments.map (Assigned.renumbered f))).Follows g
      (m.checkKeyAssigned callable (m.object o).value parameters assignments) := by
  have hkind : (m'.object o).value.kind = (m.object o).value.kind :=
    object_of_outline h DomainObject.kind (fun _ => rfl) o
  unfold checkKeyAssigned
  rw [owner_of_outline h, hkind]
  split
  · exact follows_pure ()
  · refine follows_lift_bind (rootKey_of_outline h _) fun rootKey => ?_
    cases rootKey with
    | none => exact follows_pure ()
    | some rootKey =>
      refine follows_lift_bind ?_ fun found => ?_
      · simp only [Lookup.value_find?, isRootParameter_of_outline h]
      · cases found with
        | none => exact follows_pure ()
        | some p =>
          dsimp only
          rw [attributeOf_of_outline h]
          refine follows_lift_bind rfl fun key => ?_
          refine follows_lift_bind ?_ fun copied => (follows_report (ht.whole _ rfl)).ite _
          simp only [Lookup.value_any, List.any_map, Function.comp_def, Assigned.renumbered,
            value_isOneStepPath_renumbered]

theorem follows_checkCoverage (ht : TranslatesBody g f callable' callable) (o : ObjectId)
    (assignments : List Assigned) :
    (m'.checkCoverage callable' o (assignments.map (Assigned.renumbered f))).Follows g
      (m.checkCoverage callable o assignments) := by
  have hassigned : ∀ name, (assignments.map (Assigned.renumbered f)).any (·.attributeName == name) =
      assignments.any (·.attributeName == name) := by
    intro name
    rw [List.any_map]
    rfl
  unfold checkCoverage
  rw [repeatedAssignments_renumbered]
  refine Follows.bind (follows_each_map fun a _ => follows_report (ht.target _ _ rfl)) fun _ => ?_
  refine follows_behind ?_
  rw [attributes_of_outline h]
  refine Follows.bind (follows_each fun a _ => ?_) fun _ => follows_each_map fun a _ => ?_
  · rw [attributeOf_of_outline h]
    refine follows_lift_bind rfl fun found => ?_
    dsimp only
    rw [hassigned]
    exact (follows_report (ht.whole _ rfl)).ite _
  · refine follows_lift_bind (attributeByName_of_outline h o _) fun found => ?_
    exact (follows_report (ht.target _ _ rfl)).ite _

theorem expectedType_of_outline (o : ObjectId) (name : String) :
    (m'.expectedType o name).value = (m.expectedType o name).value := by
  unfold expectedType
  rw [Lookup.value_bind, Lookup.value_bind, attributeByName_of_outline h]
  cases (m.attributeByName o name).value with
  | none => rfl
  | some a => simp only [Lookup.value_bind, attributeOf_of_outline h]

theorem parameterScope_of_outline (parameters : List Parameter) :
    (m'.parameterScope parameters).value = (m.parameterScope parameters).value := by
  simp only [parameterScope, Lookup.value_bind, Lookup.value_pure, Lookup.value_map,
    ComplexType.value_type_congr (agrees_of_outline h)]

/-- The right sides see of the parameters the variables that they declare. -/
theorem follows_checkAssignmentTypes (ht : TranslatesBody g f callable' callable)
    (policy : TernaryPolicy) (o : ObjectId) {parameters' parameters : List Parameter}
    (hscope : ∀ name, (m.parameterScope parameters').value.lookup name =
      (m.parameterScope parameters).value.lookup name) (assignments : List Assigned) :
    (m'.checkAssignmentTypes policy callable' o parameters'
        (assignments.map (Assigned.renumbered f))).Follows g
      (m.checkAssignmentTypes policy callable o parameters assignments) := by
  have henv := Env.agrees_forAggregate (agrees_of_outline h) (some (m.object o).value.aggregate)
    policy
  unfold checkAssignmentTypes
  refine follows_behind (follows_behind (follows_behind ?_))
  rw [owner_of_outline h, parameterScope_of_outline h]
  refine follows_each_map fun a _ => ?_
  refine follows_lift_bind (expectedType_of_outline h o a.attributeName) fun expected => ?_
  have hinfer := Env.follows_infer ht.numbers henv a.expression
    (m.parameterScope parameters').value (m.parameterScope parameters).value
    .constructorAssignment fun name _ => hscope name
  refine hinfer.bind fun type => ?_
  cases expected with
  | none => exact follows_pure ()
  | some t =>
    dsimp only
    rw [henv.compatible]
    exact (follows_report (ht.expression _ _ rfl)).ite _

theorem follows_checkBody (ht : TranslatesBody g f callable' callable) (policy : TernaryPolicy)
    (o : ObjectId) (parameters : List Parameter) (assignments : List Assigned) :
    (m'.checkBody policy callable' o parameters (assignments.map (Assigned.renumbered f))).Follows g
      (m.checkBody policy callable o parameters assignments) := by
  refine follows_behind ?_
  refine (follows_checkKeyAssigned h ht o parameters assignments).bind fun _ => ?_
  refine (follows_checkCoverage h ht o assignments).bind fun _ => ?_
  exact follows_checkAssignmentTypes h ht policy o (fun _ => rfl) assignments

/-! ### Bodies -/

/-- The operation is checked as the constructor is. -/
theorem follows_checkOperation (policy : TernaryPolicy) {o : ObjectId} {c : Constructor}
    (hconstructor : (m.object o).value.constructor = some c)
    (entities : m.TakesEntities c.parameters) {operation : Operation}
    (hoperation : (m'.object o).value.operations[index]? = some operation)
    (named : operation.name = (m'.object o).value.name)
    (parameters : operation.parameters = c.parameters)
    (body : operation.commands = c.commands f) :
    (m'.checkOperation policy o index).Follows (Finding.inOperation index f)
      (m.checkConstructor policy o) := by
  refine follows_behind ?_
  rw [hconstructor, hoperation]
  dsimp only
  rw [if_pos (by rw [named, beq_self_eq_true]), parameters, body,
    Operation.assigned_of_commands body]
  refine (follows_checkParameters h o entities).bind fun _ => ?_
  exact .after_silent (findings_checkCommands _ c)
    (follows_checkBody h (translatesBody_inOperation index f o) policy o _ _)

end

end Model

/-! ### What is reported -/

theorem Problem.severity_inOperation (p : Problem) : p.inOperation.severity = p.severity := by
  cases p with
  | _ => rfl

theorem Problem.suggestion_inOperation (p : Problem) : p.inOperation.suggestion = p.suggestion := by
  cases p with
  | _ => rfl

/-- Only the two messages about parameters are worded anew. -/
theorem Problem.message_inOperation (p : Problem) :
    p.inOperation.message = p.message ∨
      p.message = "Constructor parameter should be simple type of aggregate entity type." ∧
        p.inOperation.message =
          "Operation parameter should be simple type of aggregate domain object type." ∨
      p.message = "Constructor parameters require root aggregate." ∧
        p.inOperation.message = "Operation parameters require root aggregate." := by
  cases p with
  | parameterType kind =>
    cases kind with
    | constructor => exact Or.inr (Or.inl ⟨by decide, by decide⟩)
    | operation => exact Or.inl rfl
  | rootParameterMissing kind =>
    cases kind with
    | constructor => exact Or.inr (Or.inr ⟨by decide, by decide⟩)
    | operation => exact Or.inl rfl
  | _ => exact Or.inl rfl

/-- In an expression the problem itself is kept. -/
theorem Finding.problem_inOperation (index : Nat) (f : ExprId → ExprId) (finding : Finding) :
    (finding.inOperation index f).problem = finding.problem ∨
      (finding.inOperation index f).problem = finding.problem.inOperation := by
  obtain ⟨problem, node, feature, i⟩ := finding
  cases node with
  | expr id => exact Or.inl rfl
  | _ => exact Or.inr rfl

namespace Model

/-- **An operation named after its object is checked like a constructor.** If its commands are the
assignments `this.a = e` of a constructor with the same parameters, no parameter being another
object than an entity, then the same is found as in the constructor, one after the other at the
corresponding places; the severities are the same, and so are the messages but for two, which name
an operation and what it accepts.

The constructor and the operation may be of two models that only differ in bodies, and the nodes of
the expressions may be numbered differently; `Expr.renumbered_id` is the case of equal numbers. -/
theorem checkOperation_mirrors_checkConstructor (m' m : Model) (outline : m'.outline = m.outline)
    (policy : TernaryPolicy) (o : ObjectId) (c : Constructor)
    (hconstructor : (m.object o).value.constructor = some c)
    (entities : m.TakesEntities c.parameters) (index : Nat) (operation : Operation)
    (hoperation : (m'.object o).value.operations[index]? = some operation)
    (named : operation.name = (m'.object o).value.name)
    (parameters : operation.parameters = c.parameters) (f : ExprId → ExprId)
    (body : operation.commands = c.commands f) :
    (m'.checkOperation policy o index).findings =
        (m.checkConstructor policy o).findings.map (Finding.inOperation index f) ∧
      ∀ finding ∈ (m.checkConstructor policy o).findings,
        let said := finding.diagnostic
        let mirrored := (finding.inOperation index f).diagnostic
        mirrored.severity = said.severity ∧ mirrored.suggestion = said.suggestion ∧
          (mirrored.message = said.message ∨
            said.message = "Constructor parameter should be simple type of aggregate entity type." ∧
              mirrored.message =
                "Operation parameter should be simple type of aggregate domain object type." ∨
            said.message = "Constructor parameters require root aggregate." ∧
              mirrored.message = "Operation parameters require root aggregate.") := by
  have hfollows :=
    follows_checkOperation outline policy hconstructor entities hoperation named parameters body
  refine ⟨hfollows.findings, fun finding _ => ?_⟩
  simp only [Finding.diagnostic]
  rcases finding.problem_inOperation index f with h | h
  · rw [h]
    exact ⟨rfl, rfl, Or.inl rfl⟩
  · rw [h]
    exact ⟨finding.problem.severity_inOperation, finding.problem.suggestion_inOperation,
      finding.problem.message_inOperation⟩

/-- A list of owners instead of one, a sum with a truth value, and a currency that there is not. -/
def moneyBody : Constructor :=
  ⟨[⟨"owners", ⟨.list, .domainObject (some ⟨0⟩)⟩⟩, ⟨"amount", ⟨.none, .primitive "Double"⟩⟩],
    [⟨"amount", Expr.add (Expr.var "amount" []) .plus (Expr.boolean true)⟩,
      ⟨"currency", Expr.string "EUR"⟩]⟩

/-- Money that is made by a constructor or by an operation, with the same body. -/
def money : Model :=
  { Model.empty with
    aggregates := [⟨"Accounts", none, [⟨0⟩, ⟨1⟩], []⟩]
    objects :=
      [⟨"Account", ⟨0⟩, .entity ⟨none, none⟩, true, [⟨0⟩], [], none, none, []⟩,
        ⟨"Money", ⟨0⟩, .valueObject, false, [⟨1⟩, ⟨2⟩], [], some moneyBody, none,
          [⟨"Money", moneyBody.parameters, none, moneyBody.commands id⟩]⟩]
    attributes :=
      [⟨"id", "String", ⟨0⟩, true, none⟩, ⟨"ownerId", "String", ⟨1⟩, false, none⟩,
        ⟨"amount", "Double", ⟨1⟩, false, none⟩] }

/-- Once all is numbered, the nodes of the operation come after the four of the constructor. -/
theorem checkOperation_mirrors_checkConstructor_money :
    let m := money.numbered
    let f : ExprId → ExprId := fun id => ⟨id.val + 4⟩
    ∃ c operation, (m.object ⟨1⟩).value.constructor = some c ∧ m.TakesEntities c.parameters ∧
      (m.object ⟨1⟩).value.operations[0]? = some operation ∧
      operation.name = (m.object ⟨1⟩).value.name ∧ operation.parameters = c.parameters ∧
      operation.commands = c.commands f ∧
      (m.checkConstructor .boolean ⟨1⟩).findings.map (·.problem) =
        [.parameterType .constructor, .rootParameterMissing .constructor, .notAssigned "ownerId",
          .assignedUndeclared, .notNumeric .boolean] ∧
      (m.checkOperation .boolean ⟨1⟩ 0).findings =
        (m.checkConstructor .boolean ⟨1⟩).findings.map (Finding.inOperation 0 f) := by
  intro m f
  have entities : m.TakesEntities moneyBody.parameters := by
    intro p hp o htarget
    rcases List.mem_cons.mp hp with rfl | hp
    · cases htarget
      rfl
    · rw [List.mem_singleton.mp hp] at htarget
      cases htarget
  refine ⟨_, _, rfl, entities, rfl, rfl, rfl, rfl, by decide, ?_⟩
  exact (checkOperation_mirrors_checkConstructor m m rfl .boolean ⟨1⟩ _ rfl entities 0 _ rfl rfl
    rfl f rfl).1

end Model

end DomainModel
