import DomainModel.Expr.Format
import DomainModel.Model.Basic

/-! # Models as JSON

A model is a record of its arenas, and a handle is a position in one of them. Writing puts down
every field, defaults and nulls included; reading fills in what is missing and skips what is no
field. Domain objects, relationships and commands are tagged records: their tag `kind` decides which
of the other fields they have. Of a domain object only the fields that belong to its kind are tagged
in this sense; those that all kinds share are read like the fields of a plain record. As the two are
told apart by their keys, a domain object is never an array. -/

namespace DomainModel

open Json (ofHandle ofList ofOption ofWord)

/-! ## Strategic design -/

namespace BoundedContext

def toJson (c : BoundedContext) : Json :=
  .object [("name", .string c.name), ("type", ofWord c.type),
    ("aggregates", ofList ofHandle c.aggregates), ("modules", ofList ofHandle c.modules),
    ("anti_corruptions", ofList ofHandle c.antiCorruptions),
    ("realizes", ofList ofHandle c.realizes), ("owner", ofOption ofHandle c.owner)]

def ofJson? : Nat → Json → Option BoundedContext :=
  Json.record
      { needed := ["name"]
        more := ["type", "aggregates", "modules", "anti_corruptions", "realizes", "owner"] }
      fun room ms => do
    return {
      name := ← ms.required "name" Json.toString?
      type := ← ms.withDefault "type" .feature (Json.word false room)
      aggregates := ← ms.withDefault "aggregates" [] (Json.handles room)
      modules := ← ms.withDefault "modules" [] (Json.handles room)
      antiCorruptions := ← ms.withDefault "anti_corruptions" [] (Json.handles room)
      realizes := ← ms.withDefault "realizes" [] (Json.handles room)
      owner := ← ms.optional "owner" Json.toHandle? }

end BoundedContext

namespace Module

def toJson (h : Module) : Json :=
  .object [("name", .string h.name), ("aggregates", ofList ofHandle h.aggregates)]

def ofJson? : Nat → Json → Option Module :=
  Json.record { needed := ["name"], more := ["aggregates"] } fun room ms => do
    return {
      name := ← ms.required "name" Json.toString?
      aggregates := ← ms.withDefault "aggregates" [] (Json.handles room) }

end Module

namespace ContextMap

def toJson (h : ContextMap) : Json :=
  .object [("name", .string h.name), ("type", ofOption ofWord h.type),
    ("contexts", ofList ofHandle h.contexts), ("relationships", ofList ofHandle h.relationships)]

def ofJson? : Nat → Json → Option ContextMap :=
  Json.record
      { needed := ["name"]
        more := ["type", "contexts", "relationships"] }
      fun room ms => do
    return {
      name := ← ms.required "name" Json.toString?
      type := ← ms.optional "type" (Json.word false room)
      contexts := ← ms.withDefault "contexts" [] (Json.handles room)
      relationships := ← ms.withDefault "relationships" [] (Json.handles room) }

end ContextMap

namespace Relationship

def toJson : Relationship → Json
  | symmetric pattern a b =>
    .object [("kind", .string "symmetric"), ("pattern", ofWord pattern),
      ("participant1", ofOption ofHandle a), ("participant2", ofOption ofHandle b)]
  | upstreamDownstream s =>
    .object [("kind", .string "upstream_downstream"),
      ("customer_supplier", .bool s.customerSupplier), ("upstream", ofOption ofHandle s.upstream),
      ("downstream", ofOption ofHandle s.downstream),
      ("upstream_roles", ofList ofWord s.upstreamRoles),
      ("downstream_roles", ofList ofWord s.downstreamRoles),
      ("exposed_aggregates", ofList ofHandle s.exposedAggregates)]

/-- The fields of a directed relationship. -/
def supplyOfMembers? (room : Nat) (ms : Json.Members) : Option Supply := do
  return {
    customerSupplier := ← ms.withDefault "customer_supplier" false Json.toBool?
    upstream := ← ms.optional "upstream" Json.toHandle?
    downstream := ← ms.optional "downstream" Json.toHandle?
    upstreamRoles := ← ms.withDefault "upstream_roles" [] (Json.list (Json.word true) room)
    downstreamRoles := ← ms.withDefault "downstream_roles" [] (Json.list (Json.word true) room)
    exposedAggregates := ← ms.withDefault "exposed_aggregates" [] (Json.handles room) }

/-- The fields in order. -/
def layout? : String → Option Json.Layout
  | "symmetric" => some { needed := ["kind", "pattern", "participant1", "participant2"] }
  | "upstream_downstream" =>
    some
      { needed := ["kind", "customer_supplier", "upstream", "downstream"]
        more := ["upstream_roles", "downstream_roles", "exposed_aggregates"] }
  | _ => none

def ofJson? : Nat → Json → Option Relationship :=
  Json.tagged [] layout? fun room ms => do
    match ← ms.tag [] "kind" with
    | "symmetric" =>
      return symmetric (← ms.required "pattern" (Json.word true room))
        (← ms.optional "participant1" Json.toHandle?) (← ms.optional "participant2" Json.toHandle?)
    | "upstream_downstream" => return upstreamDownstream (← supplyOfMembers? room ms)
    | _ => none

end Relationship

/-! ## Aggregates and invariants -/

namespace Invariant

def toJson (i : Invariant) : Json :=
  .object [("name", .string i.name), ("expression", i.expression.toJson)]

def ofJson? : Nat → Json → Option Invariant :=
  Json.record { needed := ["name", "expression"] } fun room ms => do
    return {
      name := ← ms.required "name" Json.toString?
      expression := ← ms.required "expression" (Expr.ofJson? room) }

end Invariant

namespace Aggregate

def toJson (a : Aggregate) : Json :=
  .object [("name", .string a.name), ("context", ofOption ofHandle a.context),
    ("objects", ofList ofHandle a.objects), ("invariants", ofList Invariant.toJson a.invariants)]

def ofJson? : Nat → Json → Option Aggregate :=
  Json.record { needed := ["name", "context"], more := ["objects", "invariants"] } fun room ms => do
    return {
      name := ← ms.required "name" Json.toString?
      context := ← ms.optional "context" Json.toHandle?
      objects := ← ms.withDefault "objects" [] (Json.handles room)
      invariants := ← ms.withDefault "invariants" [] (Json.list Invariant.ofJson? room) }

end Aggregate

/-! ## Parameters and their types -/

namespace TypeTarget

def toJson : TypeTarget → Json
  | primitive name => .object [("primitive", .string name)]
  | domainObject o => .object [("domain_object", ofOption ofHandle o)]

def ofJson? (room : Nat) (v : Json) : Option TypeTarget := do
  match ← Json.choice room v with
  | ("primitive", some v) => return primitive (← v.toString?)
  | ("domain_object", some v) => return domainObject (← Json.nullable Json.toHandle? v)
  | _ => none

end TypeTarget

namespace ComplexType

def toJson (t : ComplexType) : Json :=
  .object [("collection", ofWord t.collection), ("target", t.target.toJson)]

def ofJson? : Nat → Json → Option ComplexType :=
  Json.record { needed := ["collection", "target"] } fun room ms => do
    return {
      collection := ← ms.withDefault "collection" .none (Json.word false room)
      target := ← ms.required "target" (TypeTarget.ofJson? room) }

end ComplexType

namespace Parameter

def toJson (p : Parameter) : Json :=
  .object [("name", .string p.name), ("type", p.type.toJson)]

def ofJson? : Nat → Json → Option Parameter :=
  Json.record { needed := ["name", "type"] } fun room ms => do
    return {
      name := ← ms.required "name" Json.toString?
      type := ← ms.required "type" (ComplexType.ofJson? room) }

end Parameter

/-! ## Constructors, operations and repositories -/

namespace ConstructorAssignment

def toJson (a : ConstructorAssignment) : Json :=
  .object [("attribute", .string a.attributeName), ("expression", a.expression.toJson)]

def ofJson? : Nat → Json → Option ConstructorAssignment :=
  Json.record { needed := ["attribute", "expression"] } fun room ms => do
    return {
      attributeName := ← ms.required "attribute" Json.toString?
      expression := ← ms.required "expression" (Expr.ofJson? room) }

end ConstructorAssignment

namespace Constructor

def toJson (c : Constructor) : Json :=
  .object [("parameters", ofList Parameter.toJson c.parameters),
    ("assignments", ofList ConstructorAssignment.toJson c.assignments)]

def ofJson? : Nat → Json → Option Constructor :=
  Json.record { more := ["parameters", "assignments"] } fun room ms => do
    return {
      parameters := ← ms.withDefault "parameters" [] (Json.list Parameter.ofJson? room)
      assignments :=
        ← ms.withDefault "assignments" [] (Json.list ConstructorAssignment.ofJson? room) }

end Constructor

namespace LeftValue

def toJson (l : LeftValue) : Json :=
  .object [("variable", ofOption .string l.head), ("properties", ofList .string l.properties)]

def ofJson? : Nat → Json → Option LeftValue :=
  Json.record { more := ["variable", "properties"] } fun room ms => do
    return {
      head := ← ms.optional "variable" Json.toString?
      properties := ← ms.withDefault "properties" [] (Json.strings room) }

end LeftValue

namespace Command

def toJson : Command → Json
  | assignment left right =>
    .object [("kind", .string "assignment"), ("left", left.toJson), ("right", right.toJson)]
  | other text => .object [("kind", .string "other"), ("text", .string text)]

/-- The fields in order. -/
def layout? : String → Option Json.Layout
  | "assignment" => some { needed := ["kind", "left", "right"] }
  | "other" => some { needed := ["kind", "text"] }
  | _ => none

def ofJson? : Nat → Json → Option Command :=
  Json.tagged [] layout? fun room ms => do
    match ← ms.tag [] "kind" with
    | "assignment" =>
      return assignment (← ms.required "left" (LeftValue.ofJson? room))
        (← ms.required "right" (Expr.ofJson? room))
    | "other" => return other (← ms.required "text" Json.toString?)
    | _ => none

end Command

namespace Operation

def toJson (o : Operation) : Json :=
  .object [("name", .string o.name), ("parameters", ofList Parameter.toJson o.parameters),
    ("return_type", ofOption ComplexType.toJson o.returnType),
    ("commands", ofList Command.toJson o.commands)]

def ofJson? : Nat → Json → Option Operation :=
  Json.record
      { needed := ["name"]
        more := ["parameters", "return_type", "commands"] }
      fun room ms => do
    return {
      name := ← ms.required "name" Json.toString?
      parameters := ← ms.withDefault "parameters" [] (Json.list Parameter.ofJson? room)
      returnType := ← ms.optional "return_type" (ComplexType.ofJson? room)
      commands := ← ms.withDefault "commands" [] (Json.list Command.ofJson? room) }

end Operation

namespace RepositoryOperation

def toJson (o : RepositoryOperation) : Json :=
  .object [("name", .string o.name), ("parameters", ofList Parameter.toJson o.parameters),
    ("return_type", ofOption ComplexType.toJson o.returnType)]

def ofJson? : Nat → Json → Option RepositoryOperation :=
  Json.record { needed := ["name"], more := ["parameters", "return_type"] } fun room ms => do
    return {
      name := ← ms.required "name" Json.toString?
      parameters := ← ms.withDefault "parameters" [] (Json.list Parameter.ofJson? room)
      returnType := ← ms.optional "return_type" (ComplexType.ofJson? room) }

end RepositoryOperation

namespace Repository

def toJson (r : Repository) : Json :=
  .object [("name", .string r.name), ("operations", ofList RepositoryOperation.toJson r.operations)]

def ofJson? : Nat → Json → Option Repository :=
  Json.record { needed := ["name"], more := ["operations"] } fun room ms => do
    return {
      name := ← ms.required "name" Json.toString?
      operations := ← ms.withDefault "operations" [] (Json.list RepositoryOperation.ofJson? room) }

end Repository

/-! ## Entity mappings and uses bindings -/

namespace AliasDeclaration

def toJson (a : AliasDeclaration) : Json :=
  .object [("name", .string a.name), ("references", ofList ofHandle a.references)]

def ofJson? : Nat → Json → Option AliasDeclaration :=
  Json.record { needed := ["name"], more := ["references"] } fun room ms => do
    return {
      name := ← ms.required "name" Json.toString?
      references := ← ms.withDefault "references" [] (Json.handles room) }

end AliasDeclaration

namespace AttributePathHead

def toJson : AttributePathHead → Json
  | root => .string "root"
  | declared name => .object [("alias", .string name)]

def ofJson? (room : Nat) (v : Json) : Option AttributePathHead := do
  match ← Json.choice room v with
  | ("root", held) => if Json.carriesNothing true held then some root else none
  | ("alias", some v) => return declared (← v.toString?)
  | _ => none

end AttributePathHead

namespace AttributePath

def toJson (p : AttributePath) : Json :=
  .object [("head", p.head.toJson), ("references", ofList ofHandle p.references),
    ("attribute", .string p.attributeName)]

def ofJson? : Nat → Json → Option AttributePath :=
  Json.record { needed := ["head", "references", "attribute"] } fun room ms => do
    return {
      head := ← ms.required "head" (AttributePathHead.ofJson? room)
      references := ← ms.withDefault "references" [] (Json.handles room)
      attributeName := ← ms.required "attribute" Json.toString? }

end AttributePath

namespace EntityAttributeMapping

def toJson (a : EntityAttributeMapping) : Json :=
  .object [("name", .string a.name), ("type", .string a.type), ("path", a.path.toJson)]

def ofJson? : Nat → Json → Option EntityAttributeMapping :=
  Json.record { needed := ["name", "type", "path"] } fun room ms => do
    return {
      name := ← ms.required "name" Json.toString?
      type := ← ms.required "type" Json.toString?
      path := ← ms.required "path" (AttributePath.ofJson? room) }

end EntityAttributeMapping

namespace EntityMapping

def toJson (e : EntityMapping) : Json :=
  .object [("bounded_context", .string e.boundedContext), ("aggregate", .string e.aggregate),
    ("entity", ofOption ofHandle e.entity), ("aliases", ofList AliasDeclaration.toJson e.aliases),
    ("attributes", ofList EntityAttributeMapping.toJson e.attributes)]

def ofJson? : Nat → Json → Option EntityMapping :=
  Json.record
      { needed := ["bounded_context", "aggregate", "entity"]
        more := ["aliases", "attributes"] }
      fun room ms => do
    return {
      boundedContext := ← ms.required "bounded_context" Json.toString?
      aggregate := ← ms.required "aggregate" Json.toString?
      entity := ← ms.optional "entity" Json.toHandle?
      aliases := ← ms.withDefault "aliases" [] (Json.list AliasDeclaration.ofJson? room)
      attributes :=
        ← ms.withDefault "attributes" [] (Json.list EntityAttributeMapping.ofJson? room) }

end EntityMapping

namespace EntityUses

def toJson (u : EntityUses) : Json :=
  .object [("bounded_context", ofOption ofHandle u.boundedContext),
    ("aggregate", ofOption ofHandle u.aggregate),
    ("value_object", ofOption ofHandle u.valueObject),
    ("anti_corruption", ofOption .string u.antiCorruption), ("variable", .string u.binder)]

def ofJson? : Nat → Json → Option EntityUses :=
  Json.record
      { needed := ["bounded_context", "aggregate", "value_object", "anti_corruption", "variable"] }
      fun _ ms => do
    return {
      boundedContext := ← ms.optional "bounded_context" Json.toHandle?
      aggregate := ← ms.optional "aggregate" Json.toHandle?
      valueObject := ← ms.optional "value_object" Json.toHandle?
      antiCorruption := ← ms.optional "anti_corruption" Json.toString?
      binder := ← ms.required "variable" Json.toString? }

end EntityUses

/-! ## Domain objects -/

namespace ObjectKind

/-- The members that depend on the kind, the tag first. -/
def members : ObjectKind → List (String × Json)
  | entity data =>
    [("kind", .string "entity"), ("mapping", ofOption EntityMapping.toJson data.mapping),
      ("uses", ofOption EntityUses.toJson data.uses)]
  | valueObject => [("kind", .string "value_object")]
  | domainEvent => [("kind", .string "domain_event")]
  | enum lifecycle =>
    [("kind", .string "enum"), ("defines_aggregate_lifecycle", .bool lifecycle)]

/-- The tags in order. -/
def tags : List String := ["entity", "value_object", "domain_event", "enum"]

/-- Read the kind and what belongs to it. -/
def ofMembers? (numbered : List String) (room : Nat) (ms : Json.Members) :
    Option ObjectKind := do
  match ← ms.tag numbered "kind" with
  | "entity" =>
    return entity {
      mapping := ← ms.optional "mapping" (EntityMapping.ofJson? room)
      uses := ← ms.optional "uses" (EntityUses.ofJson? room) }
  | "value_object" => return valueObject
  | "domain_event" => return domainEvent
  | "enum" => return enum (← ms.withDefault "defines_aggregate_lifecycle" false Json.toBool?)
  | _ => none

/-- The fields of a kind alone, in order. -/
def layout? : String → Option Json.Layout
  | "entity" => some { needed := ["kind"], more := ["mapping", "uses"] }
  | "value_object" | "domain_event" => some { needed := ["kind"] }
  | "enum" => some { needed := ["kind"], more := ["defines_aggregate_lifecycle"] }
  | _ => none

/-- A kind alone, as a tagged record. -/
def ofJson? : Nat → Json → Option ObjectKind := Json.tagged [] layout? (ofMembers? [])

end ObjectKind

namespace DomainObject

/-- The fields that domain objects of all kinds share. -/
def sharedFields : List String :=
  ["name", "aggregate", "aggregate_root", "attributes", "references", "constructor", "repository",
    "operations"]

def toJson (o : DomainObject) : Json :=
  .object ([("name", .string o.name), ("aggregate", ofHandle o.aggregate)] ++ o.kind.members ++
    [("aggregate_root", .bool o.aggregateRoot), ("attributes", ofList ofHandle o.attributes),
      ("references", ofList ofHandle o.references),
      ("constructor", ofOption Constructor.toJson o.constructor),
      ("repository", ofOption Repository.toJson o.repository),
      ("operations", ofList Operation.toJson o.operations)])

def ofJson? : Nat → Json → Option DomainObject :=
  Json.keyed fun room ms => do
    if ms.othersFit sharedFields room then
      return {
        name := ← ms.required "name" Json.toString?
        aggregate := ← ms.required "aggregate" Json.toHandle?
        kind := ← ObjectKind.ofMembers? ObjectKind.tags room ms
        aggregateRoot := ← ms.withDefault "aggregate_root" false Json.toBool?
        attributes := ← ms.withDefault "attributes" [] (Json.handles room)
        references := ← ms.withDefault "references" [] (Json.handles room)
        constructor := ← ms.optional "constructor" (Constructor.ofJson? room)
        repository := ← ms.optional "repository" (Repository.ofJson? room)
        operations := ← ms.withDefault "operations" [] (Json.list Operation.ofJson? room) }
    else none

end DomainObject

namespace AttributeUses

def toJson (u : AttributeUses) : Json :=
  .object [("variable", .string u.binder), ("attribute", .string u.attributeName)]

def ofJson? : Nat → Json → Option AttributeUses :=
  Json.record { needed := ["variable", "attribute"] } fun _ ms => do
    return {
      binder := ← ms.required "variable" Json.toString?
      attributeName := ← ms.required "attribute" Json.toString? }

end AttributeUses

namespace Attribute

def toJson (a : Attribute) : Json :=
  .object [("name", .string a.name), ("type", .string a.type), ("owner", ofHandle a.owner),
    ("key", .bool a.key), ("uses", ofOption AttributeUses.toJson a.uses)]

def ofJson? : Nat → Json → Option Attribute :=
  Json.record { needed := ["name", "type", "owner"], more := ["key", "uses"] } fun room ms => do
    return {
      name := ← ms.required "name" Json.toString?
      type := ← ms.required "type" Json.toString?
      owner := ← ms.required "owner" Json.toHandle?
      key := ← ms.withDefault "key" false Json.toBool?
      uses := ← ms.optional "uses" (AttributeUses.ofJson? room) }

end Attribute

namespace Reference

def toJson (r : Reference) : Json :=
  .object [("name", .string r.name), ("owner", ofHandle r.owner),
    ("target", ofOption ofHandle r.target), ("collection", ofWord r.collection)]

def ofJson? : Nat → Json → Option Reference :=
  Json.record { needed := ["name", "owner", "target"], more := ["collection"] } fun room ms => do
    return {
      name := ← ms.required "name" Json.toString?
      owner := ← ms.required "owner" Json.toHandle?
      target := ← ms.optional "target" Json.toHandle?
      collection := ← ms.withDefault "collection" .none (Json.word false room) }

end Reference

/-! ## Anti-corruption declarations -/

namespace AttributeTranslation

def toJson (t : AttributeTranslation) : Json :=
  .object [("name", .string t.name), ("type", .string t.type),
    ("entity", ofOption ofHandle t.entity), ("attribute", ofOption ofHandle t.entityAttribute),
    ("alias", ofOption .string t.aliasName)]

def ofJson? : Nat → Json → Option AttributeTranslation :=
  Json.record
      { needed := ["name", "type", "entity", "attribute"]
        more := ["alias"] }
      fun _ ms => do
    return {
      name := ← ms.required "name" Json.toString?
      type := ← ms.required "type" Json.toString?
      entity := ← ms.optional "entity" Json.toHandle?
      entityAttribute := ← ms.optional "attribute" Json.toHandle?
      aliasName := ← ms.optional "alias" Json.toString? }

end AttributeTranslation

namespace AntiCorruption

def toJson (a : AntiCorruption) : Json :=
  .object [("name", .string a.name), ("kind", ofWord a.kind), ("owner", ofHandle a.owner),
    ("bounded_context", ofOption ofHandle a.boundedContext),
    ("aggregate", ofOption ofHandle a.aggregate),
    ("attributes", ofList AttributeTranslation.toJson a.attributes),
    ("invariants", ofList Invariant.toJson a.invariants)]

def ofJson? : Nat → Json → Option AntiCorruption :=
  Json.record
      { needed := ["name", "kind", "owner", "bounded_context", "aggregate"]
        more := ["attributes", "invariants"] }
      fun room ms => do
    return {
      name := ← ms.required "name" Json.toString?
      kind := ← ms.required "kind" (Json.word false room)
      owner := ← ms.required "owner" Json.toHandle?
      boundedContext := ← ms.optional "bounded_context" Json.toHandle?
      aggregate := ← ms.optional "aggregate" Json.toHandle?
      attributes := ← ms.withDefault "attributes" [] (Json.list AttributeTranslation.ofJson? room)
      invariants := ← ms.withDefault "invariants" [] (Json.list Invariant.ofJson? room) }

end AntiCorruption

/-! ## Models -/

namespace Model

/-- **A model as JSON,** every field written. -/
def toJson (m : Model) : Json :=
  .object [("contexts", ofList BoundedContext.toJson m.contexts),
    ("modules", ofList Module.toJson m.modules),
    ("aggregates", ofList Aggregate.toJson m.aggregates),
    ("objects", ofList DomainObject.toJson m.objects),
    ("attributes", ofList Attribute.toJson m.attributes),
    ("references", ofList Reference.toJson m.references),
    ("anti_corruptions", ofList AntiCorruption.toJson m.antiCorruptions),
    ("context_maps", ofList ContextMap.toJson m.contextMaps),
    ("relationships", ofList Relationship.toJson m.relationships)]

/-- **Read a model;** handles and numbers are taken as they are. -/
def ofJson? : Nat → Json → Option Model :=
  Json.record
      { more := ["contexts", "modules", "aggregates", "objects", "attributes", "references",
          "anti_corruptions", "context_maps", "relationships"] }
      fun room ms => do
    return {
      contexts := ← ms.withDefault "contexts" [] (Json.list BoundedContext.ofJson? room)
      modules := ← ms.withDefault "modules" [] (Json.list Module.ofJson? room)
      aggregates := ← ms.withDefault "aggregates" [] (Json.list Aggregate.ofJson? room)
      objects := ← ms.withDefault "objects" [] (Json.list DomainObject.ofJson? room)
      attributes := ← ms.withDefault "attributes" [] (Json.list Attribute.ofJson? room)
      references := ← ms.withDefault "references" [] (Json.list Reference.ofJson? room)
      antiCorruptions :=
        ← ms.withDefault "anti_corruptions" [] (Json.list AntiCorruption.ofJson? room)
      contextMaps := ← ms.withDefault "context_maps" [] (Json.list ContextMap.ofJson? room)
      relationships := ← ms.withDefault "relationships" [] (Json.list Relationship.ofJson? room) }

end Model

end DomainModel
