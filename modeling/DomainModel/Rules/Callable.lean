import DomainModel.Typing.Infer

/-! # Constructors, and operations named after their object

Both obey one set of rules. A parameter is a primitive or a single object of the owning aggregate; a
value object takes the aggregate's root entity. If the root is passed in, its key is copied by a
one-step path. Every declared attribute is assigned exactly once and nothing else is, and the right
side of each assignment has the type of its attribute. An operation of another name is an ordinary
method and obeys none of this. -/

namespace DomainModel

/-- One `attribute = expression` of a body, with its position. -/
structure Assigned where
  index : Nat
  attributeName : String
  expression : Expr

/-- The feature of an assignment that names the attribute. -/
def CallableKind.targetFeature : CallableKind → Feature
  | constructor => .attribute
  | operation => .leftValue

/-- The assignments of a constructor. -/
def Constructor.assigned (c : Constructor) : List Assigned :=
  c.assignments.zipIdx.map fun (a, i) => ⟨i, a.attributeName, a.expression⟩

/-- The assignments among the commands of an operation, with their positions among all commands.
The attribute assigned is the first property of the left side. -/
def Operation.assigned (o : Operation) : List Assigned :=
  o.commands.zipIdx.filterMap fun
    | (.assignment left right, i) => some ⟨i, left.properties.headD "", right⟩
    | (.other _, _) => none

namespace Model

variable (m : Model)

/-! ## Parameters -/

/-- The parameter is a primitive, or a single object of the aggregate; for a constructor the object
is an entity. -/
def acceptsParameter (kind : CallableKind) (a : AggregateId) (p : Parameter) : Lookup Bool := do
  match p.type.target with
  | .primitive _ => return true
  | .domainObject none => return false
  | .domainObject (some o) =>
    if p.type.collection.isCollection then return false
    else if !(← m.aggregate a).objects.contains o then return false
    else
      match kind with
      | .operation => return true
      | .constructor => return (← m.object o).isEntity

/-- The parameter takes a single root entity of the aggregate. -/
def isRootParameter (a : AggregateId) (p : Parameter) : Lookup Bool := do
  match p.type.target with
  | .domainObject (some o) =>
    if p.type.collection.isCollection then return false
    else return (← m.rootEntity a) == some o
  | _ => return false

/-- Check the parameters. -/
def checkParameters (callable : Callable) (object : DomainObject) (parameters : List Parameter) :
    Check Unit := do
  Check.eachIdx
    (fun p i => do
      if !(← m.acceptsParameter callable.kind object.aggregate p) then
        Check.report (.parameterType callable.kind) (.parameter callable i) .parameterType)
    parameters
  if object.isValueObject then
    if !(← Lookup.any (m.isRootParameter object.aggregate) parameters) then
      Check.report (.rootParameterMissing callable.kind) (.callable callable) .parameters

/-! ## The key of the root entity -/

/-- The expression is the path `name.property`, whatever methods it calls. -/
def isOneStepPath (name property : String) (e : Expr) : Lookup Bool := do
  match e.form with
  | .path head properties _ =>
    if head == .variable name && properties.length == 1 then
      return (← Lookup.item properties 0) == property
    else return false
  | _ => return false

/-- Check that the key of a root entity that is passed in is copied. -/
def checkKeyAssigned (callable : Callable) (object : DomainObject) (parameters : List Parameter)
    (assignments : List Assigned) : Check Unit := do
  if object.kind.isDomainEvent then return
  else
    match ← m.rootKey object.aggregate with
    | none => return
    | some (_, key) =>
      match ← Lookup.find? (m.isRootParameter object.aggregate) parameters with
      | none => return
      | some p =>
        let keyName := (← m.attributeOf key).name
        if !(← Lookup.any (isOneStepPath p.name keyName ·.expression) assignments) then
          Check.report (.keyNotAssigned keyName) (.callable callable) .name

/-! ## Coverage -/

/-- The assignments whose attribute has been assigned before. -/
def repeatedAssignments : List String → List Assigned → List Assigned
  | _, [] => []
  | seen, a :: as =>
    if seen.contains a.attributeName then a :: repeatedAssignments seen as
    else repeatedAssignments (a.attributeName :: seen) as

/-- Check that every declared attribute is assigned exactly once and nothing else is. -/
def checkCoverage (callable : Callable) (o : ObjectId) (assignments : List Assigned) :
    Check Unit := do
  let target := callable.kind.targetFeature
  Check.each (fun a => Check.report .assignedTwice (.assignment callable a.index) target)
    (repeatedAssignments [] assignments)
  Check.each
    (fun a => do
      let name := (← m.attributeOf a).name
      if !assignments.any (·.attributeName == name) then
        Check.report (.notAssigned name) (.callable callable) .name)
    (← m.object o).attributes
  Check.each
    (fun a => do
      if (← m.attributeByName o a.attributeName).isNone then
        Check.report .assignedUndeclared (.assignment callable a.index) target)
    assignments

/-! ## Types -/

/-- The scope that parameters make. -/
def parameterScope (parameters : List Parameter) : Lookup Scope := do
  return .root (← Lookup.map (fun p => return (p.name, ← p.type.type m)) parameters)

/-- The type that an assignment to the attribute should have, if the attribute is declared. -/
def expectedType (o : ObjectId) (attributeName : String) : Lookup (Option Ty) := do
  match ← m.attributeByName o attributeName with
  | none => return none
  | some a => return some (.primitive (← m.attributeOf a).type)

/-- Check the right sides of the assignments. -/
def checkAssignmentTypes (policy : TernaryPolicy) (callable : Callable) (o : ObjectId)
    (parameters : List Parameter) (assignments : List Assigned) : Check Unit := do
  let scope ← m.parameterScope parameters
  let env ← Env.forAggregate m (some (← m.object o).aggregate) policy
  Check.each
    (fun a => do
      let expected ← m.expectedType o a.attributeName
      let type ← env.infer scope .constructorAssignment a.expression
      if let some t := expected then
        if !env.compatible type t then
          Check.report (.assignmentType t) (.assignment callable a.index) .expression)
    assignments

/-! ## Callables -/

/-- The rules on a body, once its assignments are known. -/
def checkBody (policy : TernaryPolicy) (callable : Callable) (o : ObjectId)
    (parameters : List Parameter) (assignments : List Assigned) : Check Unit := do
  let object ← m.object o
  m.checkKeyAssigned callable object parameters assignments
  m.checkCoverage callable o assignments
  m.checkAssignmentTypes policy callable o parameters assignments

/-- Report commands that do not assign to `this`. -/
def checkCommands (callable : Callable) (commands : List Command) : Check Unit :=
  Check.eachIdx
    (fun command i => do
      match command with
      | .assignment left _ =>
        if !left.isThis then
          Check.report .assignmentWithoutThis (.assignment callable i) .leftValue
      | .other _ => Check.reportAt .nonAssignmentCommand (.callable callable) .commands i)
    commands

/-- **Check the constructor of an object;** an object without constructor is in order. -/
def checkConstructor (policy : TernaryPolicy) (o : ObjectId) : Check Unit := do
  let object ← m.object o
  match object.constructor with
  | none => return
  | some c =>
    m.checkParameters (.constructor o) object c.parameters
    m.checkBody policy (.constructor o) o c.parameters c.assigned

/-- **Check the operation at a position of an object.** An operation that is not named after the
object is in order, and so is a position without operation. -/
def checkOperation (policy : TernaryPolicy) (o : ObjectId) (index : Nat) : Check Unit := do
  let object ← m.object o
  match object.operations[index]? with
  | none => return
  | some operation =>
    if operation.name == object.name then
      m.checkParameters (.operation o index) object operation.parameters
      checkCommands (.operation o index) operation.commands
      m.checkBody policy (.operation o index) o operation.parameters operation.assigned

end Model

end DomainModel
