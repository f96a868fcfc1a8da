import DomainModel.Diagnostic.Basic
import DomainModel.Model.Basic
import DomainModel.Ty.Basic

/-! # Problems

Every rule of the analysis reports a `Finding`: a `Problem`, which is the cause as data, and the
place where it was found. The wording of a problem, its severity and the suggestion that goes with
it are functions of the problem alone; `Finding.diagnostic` puts them together. -/

namespace DomainModel

/-- The two kinds of callable, which share their rules. -/
inductive CallableKind where
  | constructor
  | operation
deriving DecidableEq

def Callable.kind : Callable → CallableKind
  | constructor _ => .constructor
  | operation .. => .operation

/-- What a method demands of the value it is called on. -/
inductive Wrapper where
  | collection
  | optional
deriving DecidableEq

/-- The categories within which names have to be distinct. -/
inductive NameCategory where
  | context
  | module
  | aggregate
  | object
  | invariant
deriving DecidableEq

/-- A cause for which a rule reports. -/
inductive Problem where
  /- Expressions: heads of paths. -/
  | noRootEntity
  | rootInInterInvariant
  | rootInLambda
  | queryInConstructor (operation : String)
  | queryInInvariant (operation : String)
  | variableInInvariant (name : String)
  | undeclaredTranslationAttribute (name : String)
  | undeclaredParameter (name : String)
  | undeclaredLocal (name : String)
  | headNotObject (name : String)
  /- Expressions: queries. -/
  | queryWithoutRepository (operation : String)
  | unknownQuery (operation : String)
  | queryArity (operation : String)
  | undeclaredQueryParam (param : String)
  | queryParamType (param : String)
  | queryReturnsNoEntity (operation : String)
  | queryReturnsForeignEntity (entity : String)
  /- Expressions: properties and methods. -/
  | notEntityProperty (property : String)
  | simpleMethodOn (method : SimpleMethod) (required : Wrapper)
  | parametricMethodOn (method : ParametricMethod)
  | variableRebound (name : String)
  /- Expressions: operators. -/
  | notBoolean (type : Ty)
  | notNumeric (type : Ty)
  | incomparable (left right : Ty)
  | ternaryCondition (type : Ty)
  | ternaryThen (type : Ty)
  | ternaryElse (type : Ty)
  | ternaryMismatch (thenType elseType : Ty)
  | finalOutsideInvariant
  /- Expressions: invariants and assignments. -/
  | intraInvariantType (type : Ty)
  | interInvariantType (type : Ty)
  | assignmentType (expected : Ty)
  /- Uses bindings. -/
  | usesWithoutBinding (attributeName entity : String)
  | rootUsesValueObject (entity : String)
  | usedContextUndefined (entity : String)
  | usedAggregateUndefined (entity : String)
  | usedValueObjectUndefined (entity : String)
  | unknownAntiCorruption (name entity : String)
  | contextsUnrelated
  | aggregateOutsideContext (context : String)
  | valueObjectOutsideAggregate (aggregate : String)
  | valueObjectTooRich (valueObject : String)
  | valueObjectWithoutConstructor (valueObject : String)
  | wrongUsesVariable (attributeName binder used : String)
  | notDeclaredBy (attributeName owner : String)
  | usedAttributeType (expected : String)
  | keyTranslationUnused (translation : String)
  /- Constructors and operations named after their object. -/
  | assignmentWithoutThis
  | nonAssignmentCommand
  | parameterType (kind : CallableKind)
  | rootParameterMissing (kind : CallableKind)
  | keyNotAssigned (key : String)
  | assignedTwice
  | notAssigned (attributeName : String)
  | assignedUndeclared
  /- Aggregates and entity mappings. -/
  | multipleRoots (aggregate : String)
  | multipleLifecycleEnums (aggregate : String)
  | rootDeclaresMapping (entity : String)
  | mappingUnresolved (entity : String)
  | mappedEntityNotRoot (entity : String)
  | rootWithoutKey (entity : String)
  | aliasRepeated (name : String)
  | aliasUndeclared (name : String)
  | pathAttributeUnknown (attributeName entity : String)
  | keyNotMapped (key : String)
  | referenceForeign (reference entity : String)
  | referenceIsCollection (reference : String)
  | referenceNotToEntity (reference : String)
  /- Entity mappings and anti-corruption declarations. -/
  | attributeRepeated (kind : AntiCorruptionKind) (name : String)
  | declaredType (kind : AntiCorruptionKind) (expected : String)
  | contextNotUpstream (context : String)
  | mappedAggregateForeign (aggregate : String)
  | mappedEntityForeign (entity : String)
  /- Anti-corruption declarations. -/
  | mappedContextUndefined (name : String)
  | mappedAggregateUndefined (name : String)
  | translationUnresolved (name : String)
  | mappedAttributeForeign (attributeName : String)
  | rootKeyNotTranslated (aggregate : String)
  | invariantRepeated (name : String)
  /- Contexts and context maps. -/
  | realizesButNotTeam (context : String)
  | ownerNotTeam (owner : String)
  | contextOffMap (context : String)
  | sameParticipants
  | exposedAggregateForeign (aggregate upstream : String)
  | conformistCustomer
  | openHostSupplier
  | antiCorruptionCustomer
  | organizationalWithoutTeam
  | teamOnLandscape
  | mappedContextUnknown (context : String)
  /- Names. -/
  | nameRepeated (category : NameCategory) (name : String)
deriving DecidableEq

namespace CallableKind

/-- The word at the head of a message. -/
def title : CallableKind → String
  | constructor => "Constructor"
  | operation => "Operation"

/-- What a parameter may be besides a primitive. -/
def accepted : CallableKind → String
  | constructor => "entity"
  | operation => "domain object"

end CallableKind

def Wrapper.text : Wrapper → String
  | collection => "collection"
  | optional => "optional"

/-- What the declaration does to an attribute. -/
def AntiCorruptionKind.participle : AntiCorruptionKind → String
  | mapping => "mapped"
  | translation => "translated"

namespace Problem

/-- The wording for a repeated name. -/
def nameRepeatedMessage (name : String) : NameCategory → String
  | .context => s!"Multiple bounded contexts with the name '{name}' have been declared."
  | .module => s!"Duplicate name. There is already an existing Module named '{name}'."
  | .aggregate => s!"Multiple aggregates with the name '{name}' have been declared."
  | .object => s!"Multiple domain objects with the name '{name}' have been declared."
  | .invariant => s!"Multiple invariantes with the name '{name}' have been declared."

/-- **The wording of a problem.** -/
def message : Problem → String
  | noRootEntity => "Aggregate should have root entity."
  | rootInInterInvariant => "Inter-aggregate invariant cannot contain root."
  | rootInLambda => "Method local expression cannot contain root."
  | queryInConstructor op => s!"Constructor assignment cannot contain query {op}."
  | queryInInvariant op => s!"Aggregate invariant cannot contain query {op}."
  | variableInInvariant name => s!"Aggregate invariant cannot contain var {name}."
  | undeclaredTranslationAttribute name =>
    s!"Attribute {name} is not declared in anti-corruption translation."
  | undeclaredParameter name => s!"Constructor assigment head {name} not declared as parameter."
  | undeclaredLocal name => s!"Method local variable {name} not declared."
  | headNotObject name => s!"Path expresssion head {name} must be object."
  | queryWithoutRepository op => s!"Query {op} does not have associated repository."
  | unknownQuery op => s!"Query operation {op} is not defined in the repository."
  | queryArity op => s!"Number of query {op} parameters are not consistent with definition."
  | undeclaredQueryParam param => s!"Query param {param} is not declared."
  | queryParamType param =>
    s!"Query param {param} type does not match repository operation parameter type."
  | queryReturnsNoEntity op => s!"Query {op} does not return entity."
  | queryReturnsForeignEntity entity =>
    s!"Query returned entity {entity} does not belong to mapped aggregate."
  | notEntityProperty property => s!"Property {property} in path is not a correct entity property."
  | simpleMethodOn method required =>
    s!"Method '{Vocabulary.word method}' requires {required.text}."
  | parametricMethodOn method =>
    s!"Method '{Vocabulary.word method}' requires {Wrapper.collection.text}."
  | variableRebound name => s!"Variable {name} already declared in scope."
  | notBoolean type => s!"Expected a boolean expression but got {type.text}."
  | notNumeric type => s!"{type.text} is not numeric type."
  | incomparable left right =>
    s!"Incompatible types {left.text} <> {right.text} in comparison expression."
  | ternaryCondition type =>
    s!"Ternary expression condition must be boolean intead of {type.text}."
  | ternaryThen type => s!"Ternary expression then value must be boolean instead of {type.text}."
  | ternaryElse type => s!"Ternary expression else value must be boolean instead of {type.text}."
  | ternaryMismatch thenType elseType =>
    s!"Incompatible types {thenType.text} <> {elseType.text} in ternary expression."
  | finalOutsideInvariant => "Final Expression only allowed in aggregate Invariant."
  | intraInvariantType type =>
    s!"Invariant expression must be boolean or final, instead of {type.text}."
  | interInvariantType type => s!"Invariant expression must be boolean instead of {type.text}."
  | assignmentType expected =>
    s!"Constructor assigment expression should be of type {expected.text}."
  | usesWithoutBinding name entity =>
    s!"Attribute {name} uses a binding but entity {entity} does not use one."
  | rootUsesValueObject entity => s!"Aggregate root '{entity}' cannot use a value object."
  | usedContextUndefined entity => s!"Used bounded context of '{entity}' is not defined."
  | usedAggregateUndefined entity => s!"Used aggregate of '{entity}' is not defined."
  | usedValueObjectUndefined entity => s!"Used value object of '{entity}' is not defined."
  | unknownAntiCorruption name entity =>
    s!"Anti-corruption mapping {name} used by entity '{entity}' does not exist."
  | contextsUnrelated => "Bounded contexts should have a relationship."
  | aggregateOutsideContext context =>
    s!"Aggregate does not belong to bounded context '{context}'."
  | valueObjectOutsideAggregate aggregate =>
    s!"Value object does not belong to aggregate '{aggregate}'."
  | valueObjectTooRich valueObject =>
    s!"Value object '{valueObject}' can only have attributes and constructor."
  | valueObjectWithoutConstructor valueObject =>
    s!"Value object '{valueObject}' should have constructor."
  | wrongUsesVariable name binder _ => s!"Attribute {name} must use variable {binder}."
  | notDeclaredBy name owner => s!"Attribute {name} is not declared by {owner}."
  | usedAttributeType expected => s!"Attribute type should be {expected}."
  | keyTranslationUnused translation =>
    s!"Entity attributes should use the key attribute translation {translation}."
  | assignmentWithoutThis => "Operation constructor assignments should use this."
  | nonAssignmentCommand => "Operation constructor can only contain assignment commands."
  | parameterType kind =>
    s!"{kind.title} parameter should be simple type of aggregate {kind.accepted} type."
  | rootParameterMissing kind => s!"{kind.title} parameters require root aggregate."
  | keyNotAssigned key =>
    s!"Constructor assignements should map the key attribute {key} of the aggregate root entity."
  | assignedTwice => "Attribute is assigned more than once."
  | notAssigned name => s!"Attribute {name} is not assigned in constructor."
  | assignedUndeclared => "Attribute is not declared."
  | multipleRoots aggregate =>
    s!"Your aggregate '{aggregate}' contains multiple aggregate roots. " ++
      "An aggregate must only contain one root."
  | multipleLifecycleEnums aggregate =>
    s!"Your aggregate '{aggregate}' contains multiple enums that define its states. " ++
      "Ensure that only one enum declares the states of the Aggregate."
  | rootDeclaresMapping entity => s!"Aggregate root '{entity}' cannot declare an entity mapping."
  | mappingUnresolved entity =>
    s!"Entity mapping of '{entity}' does not resolve to an entity."
  | mappedEntityNotRoot entity => s!"Mapped entity '{entity}' must be an aggregate root."
  | rootWithoutKey entity =>
    s!"Root entity {entity} of mapped aggreagate should have a key attribute."
  | aliasRepeated name => s!"Alias {name} is declared more than once."
  | aliasUndeclared name => s!"Alias {name} is not declared."
  | pathAttributeUnknown name entity =>
    s!"Attribute {name} in path is not an attribute of entity {entity}."
  | keyNotMapped key => s!"Key attribute {key} of the mapped root entity is not mapped."
  | referenceForeign reference entity =>
    s!"Reference {reference} in path is not a reference of entity {entity}."
  | referenceIsCollection reference =>
    s!"Reference {reference} in path must not be a collection."
  | referenceNotToEntity reference =>
    s!"Reference {reference} in path does not refer to an entity."
  | attributeRepeated kind name => s!"Attribute {name} is {kind.participle} more than once."
  | declaredType kind expected =>
    s!"Attribute {Vocabulary.word kind} type should be {expected}."
  | contextNotUpstream context => s!"Mapped bounded context '{context}' is not upstream."
  | mappedAggregateForeign aggregate =>
    s!"Mapped aggregate '{aggregate}' does not belong to the mapped bounded context."
  | mappedEntityForeign entity =>
    s!"Mapped entity '{entity}' does not belong to the mapped aggregate."
  | mappedContextUndefined name => s!"Mapped bounded context of '{name}' is not defined."
  | mappedAggregateUndefined name => s!"Mapped aggregate of '{name}' is not defined."
  | translationUnresolved name => s!"Attribute {name} does not name an entity attribute."
  | mappedAttributeForeign name =>
    s!"Mapped attribute '{name}' does not belong to the mapped entity."
  | rootKeyNotTranslated aggregate =>
    s!"Root entity of aggregate '{aggregate}' and its key attribute should be mapped."
  | invariantRepeated name => s!"Invariant {name} is declared more than once."
  | realizesButNotTeam context =>
    s!"Only teams can realize bounded contexts. '{context}' is not a team!"
  | ownerNotTeam owner =>
    s!"'{owner}' is not a team. The owner attribute must refer to a Bounded Context " ++
      "representing a team (type = TEAM)!"
  | contextOffMap context => s!"The Bounded Context '{context}' is not part of the Context Map."
  | sameParticipants =>
    "Bounded context relationships must be declared between two different bounded contexts."
  | exposedAggregateForeign aggregate upstream =>
    s!"The aggregate '{aggregate}' is not part of the upstream context '{upstream}'."
  | conformistCustomer =>
    "The CONFORMIST pattern is not applicable for a Customer-Supplier relationship."
  | openHostSupplier =>
    "The OPEN-HOST SERVICE pattern is not applicable for a Customer-Supplier relationship."
  | antiCorruptionCustomer =>
    "Are you sure you need an ANTICORRUPTION LAYER here? " ++
      "This pattern should not be necessarily needed in a Customer-Supplier relationship."
  | organizationalWithoutTeam =>
    "Your Context Map is of the type ORGANIZATIONAL but does not contain Bounded Contexts of " ++
      "the type TEAM. This type of Context Map is intended to model team relationships."
  | teamOnLandscape =>
    "A Bounded Context of type 'TEAM' is not allowed on a SYSTEM_LANDSCAPE map."
  | mappedContextUnknown context => s!"Mapped bounded context '{context}' does not exist."
  | nameRepeated category name => nameRepeatedMessage name category

/-- Advice on patterns is a warning; every other problem is an error. -/
def severity : Problem → Severity
  | antiCorruptionCustomer | organizationalWithoutTeam => .warning
  | _ => .error

/-- The spelling that would mend the problem, where there is just one. -/
def suggestion : Problem → Option String
  | wrongUsesVariable _ binder used => some s!"uses {binder}.{used}"
  | _ => none

end Problem

/-- A problem and the place where it was found. -/
structure Finding where
  problem : Problem
  location : Location
deriving DecidableEq

/-- The diagnostic that reports a finding. -/
def Finding.diagnostic (f : Finding) : Diagnostic :=
  ⟨f.problem.severity, f.problem.message, some f.location, f.problem.suggestion⟩

end DomainModel
