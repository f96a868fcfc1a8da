import DomainModel.Typing.Walk
import DomainModel.Typing.Scope

/-! # Heads of paths

A path starts at the aggregate's root entity, at what a repository query returns, or at a variable.
`Env.head` finds the start, or reports the one reason why there is none. -/

namespace DomainModel

/-- Where the properties of a path start. -/
inductive Start where
  /-- At an object. -/
  | object (o : ObjectId)
  /-- At a value that has no properties. -/
  | terminal (type : Ty)
deriving DecidableEq

namespace Env

variable (env : Env)

/-- Report at a feature of the expression `id`, and find nothing. -/
def refuse {α : Type} (id : ExprId) (feature : Feature) (problem : Problem) : Check (Option α) := do
  Check.report problem (.expr id) feature
  return none

/-- Report at a position in a feature of the expression `id`, and find nothing. -/
def refuseAt {α : Type} (id : ExprId) (feature : Feature) (index : Nat) (problem : Problem) :
    Check (Option α) := do
  Check.reportAt problem (.expr id) feature index
  return none

/-- The root entity of the aggregate, reported if missing. -/
def root (id : ExprId) (feature : Feature) : Check (Option ObjectId) := do
  let found ← match env.aggregate with
    | some a => env.model.rootEntity a
    | none => pure none
  match found with
  | some o => return some o
  | none => refuse id feature .noRootEntity

/-- A domain object by name, first in the aggregate and then in the whole model. -/
def objectNamed (name : String) : Lookup (Option ObjectId) := do
  let own ← match env.aggregate with
    | some a => env.model.objectByName a name
    | none => pure none
  match own with
  | some o => return some o
  | none => Lookup.find? (fun o => return (← env.model.object o).name == name) env.model.objectIds

/-- The start of a path at a variable of the given type. The name of a domain object stands for that
object, a primitive that has values of its own is the end of the walk, and so is a wrapped value. -/
def variableStart (id : ExprId) (name : String) (type : Ty) : Check (Option Start) := do
  match type with
  | .error => return none
  | .collection _ | .optional _ => return some (.terminal type)
  | .primitive typeName | .entity typeName =>
    match ← env.objectNamed typeName with
    | some o => return some (.object o)
    | none =>
      if Ty.nullableNames.contains typeName then return some (.terminal type)
      else refuse id .headElement (.headNotObject name)
  | .final | .null => refuse id .headElement (.headNotObject name)

/-! ## Queries -/

/-- The first argument that is not declared, with its position. -/
def undeclaredParam (scope : Scope) (params : List String) : Option (String × Nat) :=
  params.zipIdx.find? (fun (param, _) => !scope.isDeclared param)

/-- The first argument whose type is not exactly that of the parameter at its position. -/
def mismatchedParam (scope : Scope) (params : List String) (declared : List Parameter) :
    Lookup (Option (String × Nat)) := do
  let found ← Lookup.find?
    (fun ((param, parameter), _) =>
      return scope.lookup param != some (← parameter.type.type env.model))
    (params.zip declared).zipIdx
  return found.map fun ((param, _), i) => (param, i)

/-- The entity that a query returns, and whether it returns a collection of it. -/
def queryResult (operation : RepositoryOperation) : Lookup (Option (ObjectId × Bool)) := do
  match operation.returnType with
  | some ⟨wrapper, .domainObject (some o)⟩ =>
    if (← env.model.object o).isEntity then return some (o, wrapper.isCollection)
    else return none
  | _ => return none

/-- The entity is one of the objects of the aggregate. -/
def isOwn (o : ObjectId) : Lookup Bool := do
  match env.aggregate with
  | some a => return (← env.model.aggregate a).objects.contains o
  | none => return false

/-- The start of a path at the result of a query whose arguments are in order. -/
def queryStart (id : ExprId) (name : String) (operation : RepositoryOperation) :
    Check (Option Start) := do
  match ← env.queryResult operation with
  | none => refuse id .queryOperation (.queryReturnsNoEntity name)
  | some (o, isCollection) =>
    if !(← env.isOwn o) then
      let entity ← env.model.object o
      refuse id .queryOperation (.queryReturnsForeignEntity entity.name)
    else if isCollection then
      let entity ← env.model.object o
      return some (.terminal (.collection (.entity entity.name)))
    else return some (.object o)

/-- The operation of that name in the repository of the root entity. -/
def queryOperation (id : ExprId) (name : String) : Check (Option RepositoryOperation) := do
  match ← env.root id .queryOperation with
  | none => return none
  | some root =>
    match (← env.model.object root).repository with
    | none => refuse id .queryOperation (.queryWithoutRepository name)
    | some repository =>
      match repository.operations.find? (·.name == name) with
      | none => refuse id .queryOperation (.unknownQuery name)
      | some operation => return some operation

/-- The start of a path at a query. -/
def query (id : ExprId) (name : String) (params : List String) (scope : Scope) :
    Check (Option Start) := do
  match ← env.queryOperation id name with
  | none => return none
  | some operation =>
    if operation.parameters.length != params.length then
      refuse id .queryOperation (.queryArity name)
    else
      match undeclaredParam scope params with
      | some (param, i) => refuseAt id .queryParams i (.undeclaredQueryParam param)
      | none =>
        match ← env.mismatchedParam scope params operation.parameters with
        | some (param, i) => refuseAt id .queryParams i (.queryParamType param)
        | none => env.queryStart id name operation

/-! ## All heads -/

/-- Why a variable is not declared, by the place of the expression. -/
def undeclared (kind : ScopeKind) (name : String) : Problem :=
  match kind with
  | .interInvariant => .undeclaredTranslationAttribute name
  | .constructorAssignment => .undeclaredParameter name
  | .intraInvariant | .methodLocal => .undeclaredLocal name

/-- **The start of a path**, or one report that there is none. A variable of type `error` has been
reported where it was declared, and is silent here. -/
def head (id : ExprId) (scope : Scope) (kind : ScopeKind) : PathHead → Check (Option Start)
  | .root => do
    if !kind.allowsRoot then
      refuse id .headElement
        (if kind = .interInvariant then .rootInInterInvariant else .rootInLambda)
    else return (← env.root id .headElement).map Start.object
  | .query operation params => do
    if !kind.allowsQuery then
      refuse id .queryOperation
        (if kind = .constructorAssignment then .queryInConstructor operation
          else .queryInInvariant operation)
    else env.query id operation params scope
  | .variable name => do
    if kind = .intraInvariant then refuse id .headElement (.variableInInvariant name)
    else
      match scope.lookup name with
      | none => refuse id .headElement (undeclared kind name)
      | some type => env.variableStart id name type

end Env

end DomainModel
