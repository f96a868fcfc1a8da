import DomainModel.Handle
import DomainModel.Vocabulary

/-! # Places in a model

A diagnostic points at a node of the model and at one of the node's features. Nodes that another
node owns (invariants, parameters, assignments, …) have no handle: a `NodeRef` addresses them by
their owner and their position in the owner's list. -/

namespace DomainModel

/-- The feature of a node that a diagnostic is about. -/
inductive Feature where
  | name
  | type
  | aggregateRoot
  | definesAggregateLifecycle
  | mapping
  | uses
  | usesBoundedContext
  | usesAggregate
  | usesValueObject
  | usesAntiCorruption
  | variable
  | usesAttribute
  | references
  | attributePathHead
  | attribute
  | boundedContext
  | aggregate
  | entity
  | expression
  | participant1
  | participant2
  | upstream
  | downstream
  | upstreamRoles
  | downstreamRoles
  | upstreamExposedAggregates
  | boundedContexts
  | realizes
  | owner
  | parameters
  | parameterType
  | assignments
  | commands
  | leftValue
  | headElement
  | properties
  | methods
  | left
  | right
  | operand
  | condition
  | thenValue
  | elseValue
  | finalElements
  | queryOperation
  | queryParams
  | operator
deriving DecidableEq

instance : Vocabulary Feature where
  values := [.name, .type, .aggregateRoot, .definesAggregateLifecycle, .mapping, .uses,
    .usesBoundedContext, .usesAggregate, .usesValueObject, .usesAntiCorruption, .variable,
    .usesAttribute, .references, .attributePathHead, .attribute, .boundedContext, .aggregate,
    .entity, .expression, .participant1, .participant2, .upstream, .downstream, .upstreamRoles,
    .downstreamRoles, .upstreamExposedAggregates, .boundedContexts, .realizes, .owner, .parameters,
    .parameterType, .assignments, .commands, .leftValue, .headElement, .properties, .methods, .left,
    .right, .operand, .condition, .thenValue, .elseValue, .finalElements, .queryOperation,
    .queryParams, .operator]
  word
    | .name => "name"
    | .type => "type"
    | .aggregateRoot => "aggregateRoot"
    | .definesAggregateLifecycle => "definesAggregateLifecycle"
    | .mapping => "mapping"
    | .uses => "uses"
    | .usesBoundedContext => "usesBoundedContext"
    | .usesAggregate => "usesAggregate"
    | .usesValueObject => "usesValueObject"
    | .usesAntiCorruption => "usesAntiCorruption"
    | .variable => "variable"
    | .usesAttribute => "usesAttribute"
    | .references => "references"
    | .attributePathHead => "attributePathHead"
    | .attribute => "attribute"
    | .boundedContext => "boundedContext"
    | .aggregate => "aggregate"
    | .entity => "entity"
    | .expression => "expression"
    | .participant1 => "participant1"
    | .participant2 => "participant2"
    | .upstream => "upstream"
    | .downstream => "downstream"
    | .upstreamRoles => "upstreamRoles"
    | .downstreamRoles => "downstreamRoles"
    | .upstreamExposedAggregates => "upstreamExposedAggregates"
    | .boundedContexts => "boundedContexts"
    | .realizes => "realizes"
    | .owner => "owner"
    | .parameters => "parameters"
    | .parameterType => "parameterType"
    | .assignments => "assignments"
    | .commands => "commands"
    | .leftValue => "leftValue"
    | .headElement => "headElement"
    | .properties => "properties"
    | .methods => "methods"
    | .left => "left"
    | .right => "right"
    | .operand => "operand"
    | .condition => "condition"
    | .thenValue => "thenValue"
    | .elseValue => "elseValue"
    | .finalElements => "finalElements"
    | .queryOperation => "queryOperation"
    | .queryParams => "queryParams"
    | .operator => "operator"
  find_word := by intro a; cases a <;> decide +kernel

/-- Anything with parameters and an assignment body. -/
inductive Callable where
  | constructor (object : ObjectId)
  | operation (object : ObjectId) (index : Nat)
deriving DecidableEq

/-- A node of the model. -/
inductive NodeRef where
  | context (id : ContextId)
  | contextMap (id : ContextMapId)
  | relationship (id : RelationshipId)
  | aggregate (id : AggregateId)
  | domainObject (id : ObjectId)
  | attribute (id : AttributeId)
  | antiCorruption (id : AntiCorruptionId)
  | attributeTranslation (owner : AntiCorruptionId) (index : Nat)
  | interInvariant (owner : AntiCorruptionId) (index : Nat)
  | intraInvariant (aggregate : AggregateId) (index : Nat)
  | entityMapping (entity : ObjectId)
  | aliasDeclaration (entity : ObjectId) (index : Nat)
  | attributeMapping (entity : ObjectId) (index : Nat)
  | callable (callable : Callable)
  | parameter (callable : Callable) (index : Nat)
  | assignment (callable : Callable) (index : Nat)
  | expr (id : ExprId)
deriving DecidableEq

end DomainModel
