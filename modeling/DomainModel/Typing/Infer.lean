import DomainModel.Typing.Head
import DomainModel.Ty.Literal

/-! # Inferring the type of an expression

`Env.infer` computes the type of an expression and reports what is wrong with it. An expression
whose type cannot be found is reported once and gets the type `error`; a rule that meets `error` in
an operand gives `error` itself and says nothing about that operand, so one fault does not cause a
second report further up.

The rules of the single forms are functions of the operands' types (`Env.booleanResult`,
`Env.ternaryResult`, …); `Env.infer` applies them to the tree, operands from left to right. -/

namespace DomainModel.Env

variable (env : Env)

/-- Report at a feature of the expression `id`; the type is `error`. -/
def fail (id : ExprId) (feature : Feature) (problem : Problem) : Check Ty := do
  Check.report problem (.expr id) feature
  return .error

/-- Report at a position in a feature of the expression `id`; the type is `error`. -/
def failAt (id : ExprId) (feature : Feature) (index : Nat) (problem : Problem) : Check Ty := do
  Check.reportAt problem (.expr id) feature index
  return .error

/-! ## Operators -/

/-- Report unless the type goes with `Boolean`; say whether it does. -/
def expectBoolean (id : ExprId) (feature : Feature) (type : Ty) : Check Bool := do
  if env.compatible type .boolean then return true
  else
    Check.report (.notBoolean type) (.expr id) feature
    return false

def booleanResult (id : ExprId) (left right : Ty) : Check Ty := do
  let leftOk ← env.expectBoolean id .left left
  let rightOk ← env.expectBoolean id .right right
  return if leftOk && rightOk && !left.isError && !right.isError then .boolean else .error

def comparisonResult (id : ExprId) (left right : Ty) : Check Ty := do
  if left.isError || right.isError then return .error
  else if env.compatible left right then return .boolean
  else fail id .operator (.incomparable left right)

/-- Report unless the type is numeric or `error`. -/
def expectNumeric (id : ExprId) (feature : Feature) (type : Ty) : Check Unit := do
  if !type.isError && !type.isNumeric then Check.report (.notNumeric type) (.expr id) feature

def arithmeticResult (id : ExprId) (left right : Ty) : Check Ty := do
  expectNumeric id .left left
  expectNumeric id .right right
  return if left.isNumeric && right.isNumeric then left else .error

/-- The type of an operator between two operands. -/
def binaryResult (id : ExprId) (left right : Ty) : BinaryOp → Check Ty
  | .boolean _ => env.booleanResult id left right
  | .comparison _ => env.comparisonResult id left right
  | .addition _ | .multiplication _ => arithmeticResult id left right

def negationResult (id : ExprId) (operand : Ty) : Check Ty := do
  return if ← env.expectBoolean id .operand operand then operand else .error

def signedResult (id : ExprId) (operand : Ty) : Check Ty := do
  if operand.isError || operand.isNumeric then return operand
  else fail id .operand (.notNumeric operand)

/-! ## Ternaries -/

/-- The condition is fit for a ternary; an unfit one is reported unless it is `error`. -/
def conditionHolds (id : ExprId) (condition : Ty) : Check Bool := do
  if condition.isError then return false
  else if condition.isBoolean then return true
  else
    Check.report (.ternaryCondition condition) (.expr id) .condition
    return false

/-- The type of a ternary whose condition is in order. -/
def ternaryResult (id : ExprId) (thenType elseType : Ty) : Check Ty := do
  if thenType.isError || elseType.isError then return .error
  else
    match env.policy with
    | .boolean =>
      if !thenType.isBoolean then Check.report (.ternaryThen thenType) (.expr id) .thenValue
      if !elseType.isBoolean then Check.report (.ternaryElse elseType) (.expr id) .elseValue
      return if thenType.isBoolean && elseType.isBoolean then .boolean else .error
    | .matching =>
      if !env.compatible thenType elseType then
        fail id .elseValue (.ternaryMismatch thenType elseType)
      else return if thenType = .null then elseType else thenType

/-! ## Final expressions -/

/-- The position of the property that keeps a chain of a `final(…)` from ending on an attribute: the
first that cannot be resolved, or else the last one. The chain without properties has none. -/
def offendingPosition (root : ObjectId) (chain : List String) : Lookup (Option Nat) := do
  match ← env.model.walk root chain with
  | .error position => return some position
  | .ok (.primitive _) => return none
  | .ok _ => return if chain.isEmpty then none else some (chain.length - 1)

/-- Report the chains that do not end on an attribute. -/
def checkChains (id : ExprId) (root : ObjectId) : Nat → List (List String) → Check Bool
  | _, [] => return true
  | index, chain :: chains => do
    let offending ← env.offendingPosition root chain
    if let some position := offending then
      let property ← Lookup.item chain position
      Check.reportAt (.notEntityProperty property) (.expr id) .finalElements index
    let rest ← checkChains id root (index + 1) chains
    return offending.isNone && rest

def finalResult (id : ExprId) (kind : ScopeKind) (chains : List (List String)) : Check Ty := do
  if kind ≠ .intraInvariant then fail id .finalElements .finalOutsideInvariant
  else
    match ← env.root id .finalElements with
    | none => return .error
    | some root => return if ← env.checkChains id root 0 chains then .final else .error

/-! ## Paths -/

/-- Report the property at a position of a path, which cannot be resolved. -/
def propertyError (id : ExprId) (properties : List String) (position : Nat) : Check Ty := do
  let property ← Lookup.item properties position
  failAt id .properties position (.notEntityProperty property)

/-- The type at the end of the properties of a path, before its methods. -/
def base (id : ExprId) (scope : Scope) (kind : ScopeKind) (head : PathHead)
    (properties : List String) : Check Ty := do
  match ← env.head id scope kind head with
  | none => return .error
  | some (.object o) =>
    match ← env.model.walk o properties with
    | .ok type => return type
    | .error position => propertyError id properties position
  | some (.terminal type) =>
    if properties.isEmpty then return type else propertyError id properties 0

def simpleResult (id : ExprId) (index : Nat) (method : SimpleMethod) (type : Ty) : Check Ty := do
  match method with
  | .count =>
    if type.isCollection then return .long
    else failAt id .methods index (.simpleMethodOn method .collection)
  | .distinct =>
    if type.isCollection then return type
    else failAt id .methods index (.simpleMethodOn method .collection)
  | .findAny | .findFirst =>
    if type.isCollection then return .optional type.unwrapCollection
    else failAt id .methods index (.simpleMethodOn method .collection)
  | .isEmpty =>
    if type.isOptional then return .boolean
    else failAt id .methods index (.simpleMethodOn method .optional)
  | .get =>
    if type.isOptional then return type.unwrapOptional
    else failAt id .methods index (.simpleMethodOn method .optional)

/-- The scope of the lambda of a method called on a value of the given type. -/
def lambdaScope (id : ExprId) (index : Nat) (method : ParametricMethod) (binder : String)
    (type : Ty) (scope : Scope) : Check (Option Scope) := do
  if !type.isCollection then refuseAt id .methods index (.parametricMethodOn method)
  else
    match scope.bind binder type.unwrapCollection with
    | .ok inner => return some inner
    | .error _ => refuseAt id .methods index (.variableRebound binder)

/-- The type of a method called with a lambda, from the types of the value and the body. -/
def lambdaResult (id : ExprId) (index : Nat) (method : ParametricMethod) (type body : Ty) :
    Check Ty := do
  if body.isError then return .error
  else if method.takesPredicate && !body.isBoolean then
    failAt id .methods index (.notBoolean body)
  else
    match method with
    | .allMatch | .anyMatch | .noneMatch => return .boolean
    | .filter => return type
    | .map => return .collection body
    | .flatMap => return body

/-! ## The tree -/

mutual

/-- **The type of an expression** in a scope. -/
def infer (scope : Scope) (kind : ScopeKind) : Expr → Check Ty
  | ⟨id, .binary op left right⟩ => do
    let leftType ← infer scope kind left
    let rightType ← infer scope kind right
    env.binaryResult id leftType rightType op
  | ⟨_, .lone _ operand⟩ => infer scope kind operand
  | ⟨id, .negation operand⟩ => do env.negationResult id (← infer scope kind operand)
  | ⟨id, .signed _ operand⟩ => do signedResult id (← infer scope kind operand)
  | ⟨id, .ternary condition thenValue elseValue⟩ => do
    if ← conditionHolds id (← infer scope kind condition) then
      let thenType ← infer scope kind thenValue
      let elseType ← infer scope kind elseValue
      env.ternaryResult id thenType elseType
    else return .error
  | ⟨id, .final chains⟩ => env.finalResult id kind chains
  | ⟨id, .path head properties methods⟩ => do
    let type ← env.base id scope kind head properties
    if type.isError then return .error else applyMethods id scope 0 type methods
  | ⟨_, .parenthesized inner⟩ => infer scope kind inner
  | ⟨_, .number literal⟩ => return Literal.type literal
  | ⟨_, .string _⟩ => return .string
  | ⟨_, .bool _⟩ => return .boolean
  | ⟨_, .null⟩ => return .null
  | ⟨_, .now⟩ => return .dateTime

/-- The type after a chain of methods whose first one has the position `index`. -/
def applyMethods (id : ExprId) (scope : Scope) (index : Nat) (type : Ty) : List Method → Check Ty
  | [] => return type
  | .simple method :: methods => do
    let next ← simpleResult id index method type
    if next.isError then return .error else applyMethods id scope (index + 1) next methods
  | .parametric method binder body :: methods => do
    match ← lambdaScope id index method binder type scope with
    | none => return .error
    | some inner =>
      let bodyType ← infer inner .methodLocal body
      let next ← lambdaResult id index method type bodyType
      if next.isError then return .error else applyMethods id scope (index + 1) next methods

end

end DomainModel.Env

namespace DomainModel.Model

/-- **The type of a standalone expression,** which may navigate the entities of an aggregate. -/
def inferType (m : Model) (aggregate : Option AggregateId) (policy : TernaryPolicy) (scope : Scope)
    (kind : ScopeKind) (e : Expr) : Check Ty := do
  let env ← Env.forAggregate m aggregate policy
  env.infer scope kind e

end DomainModel.Model
