import DomainModel.Expr.Basic

/-! # Models

A model describes a landscape of bounded contexts: the contexts and the maps of their relationships
(strategic design), the aggregates with their domain objects (tactical design), and the
anti-corruption declarations that connect an aggregate of one context to another context.

Nodes with a handle live in the arenas of the `Model`; all other nodes are owned by one of these.
A link that could not be resolved is `none`. Nothing here asks that a handle points inside its
arena. -/

namespace DomainModel

/-! ## Strategic design -/

inductive ContextType where
  | feature
  | application
  | system
  | team
deriving DecidableEq, Inhabited

instance : Vocabulary ContextType where
  values := [.feature, .application, .system, .team]
  word
    | .feature => "FEATURE"
    | .application => "APPLICATION"
    | .system => "SYSTEM"
    | .team => "TEAM"
  find_word := by intro a; cases a <;> rfl

/-- A named unit that owns aggregates. -/
structure BoundedContext where
  name : String
  type : ContextType
  aggregates : List AggregateId
  modules : List ModuleId
  antiCorruptions : List AntiCorruptionId
  /-- The contexts that this one realizes, if it is a team. -/
  realizes : List ContextId
  /-- The team that owns this context. -/
  owner : Option ContextId
deriving DecidableEq, Inhabited

/-- A part of a bounded context that owns further aggregates. -/
structure Module where
  name : String
  aggregates : List AggregateId
deriving DecidableEq, Inhabited

inductive ContextMapType where
  | systemLandscape
  | organizational
deriving DecidableEq

instance : Vocabulary ContextMapType where
  values := [.systemLandscape, .organizational]
  word
    | .systemLandscape => "SYSTEM_LANDSCAPE"
    | .organizational => "ORGANIZATIONAL"
  find_word := by intro a; cases a <;> rfl

structure ContextMap where
  name : String
  type : Option ContextMapType
  contexts : List ContextId
  relationships : List RelationshipId
deriving DecidableEq, Inhabited

inductive SymmetricPattern where
  | partnership
  | sharedKernel
deriving DecidableEq

instance : Vocabulary SymmetricPattern where
  values := [.partnership, .sharedKernel]
  word
    | .partnership => "PARTNERSHIP"
    | .sharedKernel => "SHARED_KERNEL"
  find_word := by intro a; cases a <;> rfl

inductive UpstreamRole where
  | openHostService
  | publishedLanguage
deriving DecidableEq

instance : Vocabulary UpstreamRole where
  values := [.openHostService, .publishedLanguage]
  word
    | .openHostService => "OHS"
    | .publishedLanguage => "PL"
  find_word := by intro a; cases a <;> rfl

inductive DownstreamRole where
  | antiCorruptionLayer
  | conformist
deriving DecidableEq

instance : Vocabulary DownstreamRole where
  values := [.antiCorruptionLayer, .conformist]
  word
    | .antiCorruptionLayer => "ACL"
    | .conformist => "CF"
  find_word := by intro a; cases a <;> rfl

/-- The directed relationship of an upstream and a downstream context. -/
structure Supply where
  customerSupplier : Bool
  upstream : Option ContextId
  downstream : Option ContextId
  upstreamRoles : List UpstreamRole
  downstreamRoles : List DownstreamRole
  exposedAggregates : List AggregateId
deriving DecidableEq

/-- A relationship between two bounded contexts of a context map. -/
inductive Relationship where
  | symmetric (pattern : SymmetricPattern) (participant1 participant2 : Option ContextId)
  | upstreamDownstream (supply : Supply)
deriving DecidableEq

instance : Inhabited Relationship := ⟨.symmetric .partnership none none⟩

namespace Relationship

/-- The upstream and the downstream context of a directed relationship. -/
def upstreamDownstream? : Relationship → Option (Option ContextId × Option ContextId)
  | upstreamDownstream s => some (s.upstream, s.downstream)
  | symmetric .. => none

/-- Both contexts, the upstream one first in a directed relationship. -/
def participants : Relationship → Option ContextId × Option ContextId
  | symmetric _ a b => (a, b)
  | upstreamDownstream s => (s.upstream, s.downstream)

end Relationship

/-! ## Tactical design -/

/-- A named constraint: boolean, or a `final(…)` expression. -/
structure Invariant where
  name : String
  expression : Expr
deriving Inhabited

/-- A consistency boundary around domain objects. -/
structure Aggregate where
  name : String
  context : Option ContextId
  objects : List ObjectId
  invariants : List Invariant
deriving Inhabited

inductive CollectionKind where
  | none
  | list
  | set
  | bag
  | collection
deriving DecidableEq, Inhabited

instance : Vocabulary CollectionKind where
  values := [.none, .list, .set, .bag, .collection]
  word
    | .none => "NONE"
    | .list => "LIST"
    | .set => "SET"
    | .bag => "BAG"
    | .collection => "COLLECTION"
  find_word := by intro a; cases a <;> rfl

def CollectionKind.isCollection (kind : CollectionKind) : Bool := kind != .none

/-- What a declared type names, the collection around it apart. -/
inductive TypeTarget where
  | primitive (name : String)
  | domainObject (object : Option ObjectId)
deriving DecidableEq

/-- A declared parameter or return type. -/
structure ComplexType where
  collection : CollectionKind
  target : TypeTarget
deriving DecidableEq

structure Parameter where
  name : String
  type : ComplexType
deriving DecidableEq

/-- `attribute = expression` in a constructor. -/
structure ConstructorAssignment where
  attributeName : String
  expression : Expr

structure Constructor where
  parameters : List Parameter
  assignments : List ConstructorAssignment

/-- The left side of an assignment command: a property chain of a variable, or of `this`. -/
structure LeftValue where
  /-- The variable; `none` stands for `this`. -/
  head : Option String
  properties : List String
deriving DecidableEq

def LeftValue.isThis (left : LeftValue) : Bool := left.head.isNone

inductive Command where
  | assignment (left : LeftValue) (right : Expr)
  /-- Any other command, as written. -/
  | other (text : String)

structure Operation where
  name : String
  parameters : List Parameter
  returnType : Option ComplexType
  commands : List Command

structure RepositoryOperation where
  name : String
  parameters : List Parameter
  returnType : Option ComplexType
deriving DecidableEq

structure Repository where
  name : String
  operations : List RepositoryOperation
deriving DecidableEq

/-- A name for a chain of references that starts at the root of the mapped aggregate. -/
structure AliasDeclaration where
  name : String
  references : List ReferenceId
deriving DecidableEq

inductive AttributePathHead where
  | root
  | declared (name : String)
deriving DecidableEq

/-- A head, a chain of references and the attribute at its end. -/
structure AttributePath where
  head : AttributePathHead
  references : List ReferenceId
  attributeName : String
deriving DecidableEq

/-- A local attribute and the path to the attribute of the mapped aggregate that it stands for. -/
structure EntityAttributeMapping where
  name : String
  type : String
  path : AttributePath
deriving DecidableEq

/-- An entity that stands for the root entity of an aggregate of another context. -/
structure EntityMapping where
  boundedContext : String
  aggregate : String
  entity : Option ObjectId
  aliases : List AliasDeclaration
  attributes : List EntityAttributeMapping
deriving DecidableEq

/-- An entity that delegates to a value object of an aggregate of another context. -/
structure EntityUses where
  boundedContext : Option ContextId
  aggregate : Option AggregateId
  valueObject : Option ObjectId
  /-- The name of an anti-corruption declaration of the owning context. -/
  antiCorruption : Option String
  binder : String
deriving DecidableEq

/-- What an entity has and other domain objects have not. -/
structure EntityData where
  mapping : Option EntityMapping
  uses : Option EntityUses
deriving DecidableEq, Inhabited

inductive ObjectKind where
  | entity (data : EntityData)
  | valueObject
  | domainEvent
  | enum (definesLifecycle : Bool)
deriving DecidableEq

instance : Inhabited ObjectKind := ⟨.valueObject⟩

namespace ObjectKind

def isEntity : ObjectKind → Bool
  | entity _ => true
  | _ => false

def isValueObject : ObjectKind → Bool
  | valueObject => true
  | _ => false

def isDomainEvent : ObjectKind → Bool
  | domainEvent => true
  | _ => false

/-- An enum that declares the states of its aggregate. -/
def isLifecycleEnum : ObjectKind → Bool
  | enum lifecycle => lifecycle
  | _ => false

def entity? : ObjectKind → Option EntityData
  | entity data => some data
  | _ => none

/-- The kind as reports show it. -/
def text : ObjectKind → String
  | entity _ => "Entity"
  | valueObject => "ValueObject"
  | domainEvent => "DomainEvent"
  | enum _ => "Enum"

end ObjectKind

structure DomainObject where
  name : String
  aggregate : AggregateId
  kind : ObjectKind
  aggregateRoot : Bool
  attributes : List AttributeId
  references : List ReferenceId
  constructor : Option Constructor
  repository : Option Repository
  operations : List Operation
deriving Inhabited

namespace DomainObject

def isEntity (o : DomainObject) : Bool := o.kind.isEntity

def isValueObject (o : DomainObject) : Bool := o.kind.isValueObject

/-- An entity that is flagged as the root of its aggregate. -/
def isRootEntity (o : DomainObject) : Bool := o.aggregateRoot && o.isEntity

def mapping? (o : DomainObject) : Option EntityMapping := o.kind.entity?.bind (·.mapping)

def uses? (o : DomainObject) : Option EntityUses := o.kind.entity?.bind (·.uses)

end DomainObject

/-- `uses variable.attribute` on an attribute. -/
structure AttributeUses where
  binder : String
  attributeName : String
deriving DecidableEq

structure Attribute where
  name : String
  type : String
  owner : ObjectId
  key : Bool
  uses : Option AttributeUses
deriving DecidableEq, Inhabited

structure Reference where
  name : String
  owner : ObjectId
  target : Option ObjectId
  collection : CollectionKind
deriving DecidableEq, Inhabited

/-! ## Anti-corruption declarations -/

inductive AntiCorruptionKind where
  | mapping
  | translation
deriving DecidableEq, Inhabited

instance : Vocabulary AntiCorruptionKind where
  values := [.mapping, .translation]
  word
    | .mapping => "mapping"
    | .translation => "translation"
  find_word := by intro a; cases a <;> rfl

/-- A local attribute and the entity attribute that it stands for. -/
structure AttributeTranslation where
  name : String
  type : String
  entity : Option ObjectId
  entityAttribute : Option AttributeId
  aliasName : Option String
deriving DecidableEq

/-- A correspondence from an aggregate of an upstream context to the owning context. -/
structure AntiCorruption where
  name : String
  kind : AntiCorruptionKind
  owner : ContextId
  boundedContext : Option ContextId
  aggregate : Option AggregateId
  attributes : List AttributeTranslation
  invariants : List Invariant
deriving Inhabited

/-! ## The model -/

/-- The arenas of a model. -/
structure Model where
  contexts : List BoundedContext
  modules : List Module
  aggregates : List Aggregate
  objects : List DomainObject
  attributes : List Attribute
  references : List Reference
  antiCorruptions : List AntiCorruption
  contextMaps : List ContextMap
  relationships : List Relationship
deriving Inhabited

namespace Model

/-- The model without nodes. -/
def empty : Model := ⟨[], [], [], [], [], [], [], [], []⟩

/-- The number of nodes in an arena; there is no arena of expressions. -/
def size (m : Model) : Arena → Nat
  | .context => m.contexts.length
  | .module => m.modules.length
  | .aggregate => m.aggregates.length
  | .object => m.objects.length
  | .attribute => m.attributes.length
  | .reference => m.references.length
  | .antiCorruption => m.antiCorruptions.length
  | .contextMap => m.contextMaps.length
  | .relationship => m.relationships.length
  | .expr => 0

/-- The handle points inside its arena. -/
def Holds (m : Model) (h : AnyHandle) : Prop := h.index < m.size h.arena

instance (m : Model) (h : AnyHandle) : Decidable (m.Holds h) :=
  inferInstanceAs (Decidable (h.index < m.size h.arena))

end Model

end DomainModel
