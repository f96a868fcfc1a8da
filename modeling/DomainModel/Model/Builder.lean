import DomainModel.Model.Numbering

/-! # Building models

A model can be put together by calls instead of being loaded. Each call adds a node or sets a part
of one, wires it into its parent, and gives the handle of the new node. A call fails if it writes
to a node that does not exist; other handles are taken as they are, so a built model need not be
linked. `Call` is a call as data, and `Builder.build` runs a sequence of calls on the empty model.
-/

namespace DomainModel

/-- A computation that changes a model, or fails at a handle that points nowhere. -/
abbrev Build := StateT Model (Except AnyHandle)

namespace Builder

/-! ## Writing to a node -/

/-- Change the node of a handle, which has to exist. -/
def modifyNode {α : Type} {arena : Arena} (nodes : Model → List α) (put : Model → List α → Model)
    (h : Handle arena) (f : α → α) : Build Unit := do
  let m ← get
  if h.index < (nodes m).length then set (put m ((nodes m).modify h.index f))
  else throw h.any

def modifyContext : ContextId → (BoundedContext → BoundedContext) → Build Unit :=
  modifyNode Model.contexts fun m ns => { m with contexts := ns }

def modifyModule : ModuleId → (Module → Module) → Build Unit :=
  modifyNode Model.modules fun m ns => { m with modules := ns }

def modifyAggregate : AggregateId → (Aggregate → Aggregate) → Build Unit :=
  modifyNode Model.aggregates fun m ns => { m with aggregates := ns }

def modifyObject : ObjectId → (DomainObject → DomainObject) → Build Unit :=
  modifyNode Model.objects fun m ns => { m with objects := ns }

def modifyAttribute : AttributeId → (Attribute → Attribute) → Build Unit :=
  modifyNode Model.attributes fun m ns => { m with attributes := ns }

def modifyAntiCorruption : AntiCorruptionId → (AntiCorruption → AntiCorruption) → Build Unit :=
  modifyNode Model.antiCorruptions fun m ns => { m with antiCorruptions := ns }

def modifyContextMap : ContextMapId → (ContextMap → ContextMap) → Build Unit :=
  modifyNode Model.contextMaps fun m ns => { m with contextMaps := ns }

/-- Add a node to an arena. -/
def push {α : Type} {arena : Arena} (nodes : Model → List α) (put : Model → List α → Model)
    (a : α) : Build (Handle arena) := do
  let m ← get
  set (put m (nodes m ++ [a]))
  return .ofIndex (nodes m).length

/-! ## Bounded contexts -/

def context (name : String) (type : ContextType) : Build ContextId :=
  push Model.contexts (fun m ns => { m with contexts := ns }) ⟨name, type, [], [], [], [], none⟩

/-- Set the team that owns a context. -/
def owner (c team : ContextId) : Build Unit := modifyContext c ({ · with owner := some team })

def realizes (c realized : ContextId) : Build Unit :=
  modifyContext c fun n => { n with realizes := n.realizes ++ [realized] }

def module (c : ContextId) (name : String) : Build ModuleId := do
  let h ← push Model.modules (fun m ns => { m with modules := ns }) ⟨name, []⟩
  modifyContext c fun n => { n with modules := n.modules ++ [h] }
  return h

/-! ## Aggregates -/

/-- Add an aggregate of a context that nothing lists yet. -/
def pushAggregate (c : ContextId) (name : String) : Build AggregateId :=
  push Model.aggregates (fun m ns => { m with aggregates := ns }) ⟨name, some c, [], []⟩

def aggregate (c : ContextId) (name : String) : Build AggregateId := do
  let h ← pushAggregate c name
  modifyContext c fun n => { n with aggregates := n.aggregates ++ [h] }
  return h

/-- Add an aggregate that a module of the context lists. -/
def moduleAggregate (inModule : ModuleId) (c : ContextId) (name : String) : Build AggregateId := do
  let h ← pushAggregate c name
  modifyModule inModule fun n => { n with aggregates := n.aggregates ++ [h] }
  return h

def invariant (a : AggregateId) (name : String) (expression : Expr) : Build Unit :=
  modifyAggregate a fun n => { n with invariants := n.invariants ++ [⟨name, expression⟩] }

/-! ## Domain objects -/

def object (a : AggregateId) (name : String) (kind : ObjectKind) (root : Bool) :
    Build ObjectId := do
  let h ← push Model.objects (fun m ns => { m with objects := ns })
    ⟨name, a, kind, root, [], [], none, none, []⟩
  modifyAggregate a fun n => { n with objects := n.objects ++ [h] }
  return h

def entity (a : AggregateId) (name : String) : Build ObjectId :=
  object a name (.entity ⟨none, none⟩) false

def rootEntity (a : AggregateId) (name : String) : Build ObjectId :=
  object a name (.entity ⟨none, none⟩) true

def valueObject (a : AggregateId) (name : String) : Build ObjectId :=
  object a name .valueObject false

def domainEvent (a : AggregateId) (name : String) : Build ObjectId :=
  object a name .domainEvent false

def lifecycleEnum (a : AggregateId) (name : String) : Build ObjectId :=
  object a name (.enum true) false

/-- Add an attribute of an object. -/
def pushAttribute (o : ObjectId) (name type : String) (key : Bool) : Build AttributeId := do
  let h ← push Model.attributes (fun m ns => { m with attributes := ns }) ⟨name, type, o, key, none⟩
  modifyObject o fun n => { n with attributes := n.attributes ++ [h] }
  return h

def plainAttribute (o : ObjectId) (name type : String) : Build AttributeId :=
  pushAttribute o name type false

def keyAttribute (o : ObjectId) (name type : String) : Build AttributeId :=
  pushAttribute o name type true

/-- Set the uses clause of an attribute. -/
def attributeUses (a : AttributeId) (binder used : String) : Build Unit :=
  modifyAttribute a ({ · with uses := some ⟨binder, used⟩ })

def reference (o : ObjectId) (name : String) (target : ObjectId) (wrapper : CollectionKind) :
    Build ReferenceId := do
  let h ← push Model.references (fun m ns => { m with references := ns })
    ⟨name, o, some target, wrapper⟩
  modifyObject o fun n => { n with references := n.references ++ [h] }
  return h

def constructor (o : ObjectId) (c : Constructor) : Build Unit :=
  modifyObject o ({ · with constructor := some c })

/-- Add an operation and give its position among the operations of the object. -/
def operation (o : ObjectId) (op : Operation) : Build Nat := do
  let m ← get
  modifyObject o fun n => { n with operations := n.operations ++ [op] }
  return (m.objects[o.index]?.map (·.operations.length)).getD 0

def repository (o : ObjectId) (r : Repository) : Build Unit :=
  modifyObject o ({ · with repository := some r })

/-- Change what an entity has and other objects have not. -/
def modifyEntity (o : ObjectId) (f : EntityData → EntityData) : Build Unit :=
  modifyObject o fun n =>
    match n.kind with
    | .entity data => { n with kind := .entity (f data) }
    | _ => n

/-- Set the mapping of an entity; other objects stay as they are. -/
def entityMapping (o : ObjectId) (mapping : EntityMapping) : Build Unit :=
  modifyEntity o ({ · with mapping := some mapping })

/-- Set the uses binding of an entity; other objects stay as they are. -/
def entityUses (o : ObjectId) (uses : EntityUses) : Build Unit :=
  modifyEntity o ({ · with uses := some uses })

/-! ## Anti-corruption declarations -/

def antiCorruption (c : ContextId) (name : String) (kind : AntiCorruptionKind) (mapped : ContextId)
    (a : AggregateId) : Build AntiCorruptionId := do
  let h ← push Model.antiCorruptions (fun m ns => { m with antiCorruptions := ns })
    ⟨name, kind, c, some mapped, some a, [], []⟩
  modifyContext c fun n => { n with antiCorruptions := n.antiCorruptions ++ [h] }
  return h

/-- Add a translated attribute, which stands for an existing one and takes its entity from there. -/
def translate (h : AntiCorruptionId) (name type : String) (a : AttributeId) : Build Unit := do
  match (← get).attributes[a.index]? with
  | none => throw a.any
  | some linked =>
    modifyAntiCorruption h fun n =>
      { n with attributes := n.attributes ++ [⟨name, type, some linked.owner, some a, none⟩] }

def interInvariant (h : AntiCorruptionId) (name : String) (expression : Expr) : Build Unit :=
  modifyAntiCorruption h fun n => { n with invariants := n.invariants ++ [⟨name, expression⟩] }

/-! ## Context maps -/

def contextMap (name : String) (type : Option ContextMapType) (contexts : List ContextId) :
    Build ContextMapId :=
  push Model.contextMaps (fun m ns => { m with contextMaps := ns }) ⟨name, type, contexts, []⟩

def relationship (h : ContextMapId) (r : Relationship) : Build RelationshipId := do
  let id ← push Model.relationships (fun m ns => { m with relationships := ns }) r
  modifyContextMap h fun n => { n with relationships := n.relationships ++ [id] }
  return id

/-- Add a directed relationship without roles. -/
def upstreamDownstream (h : ContextMapId) (up down : ContextId) : Build RelationshipId :=
  relationship h (.upstreamDownstream ⟨false, some up, some down, [], [], []⟩)

def partnership (h : ContextMapId) (a b : ContextId) : Build RelationshipId :=
  relationship h (.symmetric .partnership (some a) (some b))

end Builder

/-! ## Calls as data -/

/-- A call that builds a part of a model. -/
inductive Call where
  | context (name : String) (type : ContextType)
  | owner (c team : ContextId)
  | realizes (c realized : ContextId)
  | module (c : ContextId) (name : String)
  | aggregate (c : ContextId) (name : String)
  | moduleAggregate (inModule : ModuleId) (c : ContextId) (name : String)
  | invariant (a : AggregateId) (name : String) (expression : Expr)
  | object (a : AggregateId) (name : String) (kind : ObjectKind) (root : Bool)
  | entity (a : AggregateId) (name : String)
  | rootEntity (a : AggregateId) (name : String)
  | valueObject (a : AggregateId) (name : String)
  | domainEvent (a : AggregateId) (name : String)
  | lifecycleEnum (a : AggregateId) (name : String)
  | plainAttribute (o : ObjectId) (name type : String)
  | keyAttribute (o : ObjectId) (name type : String)
  | attributeUses (a : AttributeId) (binder used : String)
  | reference (o : ObjectId) (name : String) (target : ObjectId) (wrapper : CollectionKind)
  | constructor (o : ObjectId) (c : Constructor)
  | operation (o : ObjectId) (op : Operation)
  | repository (o : ObjectId) (r : Repository)
  | entityMapping (o : ObjectId) (mapping : EntityMapping)
  | entityUses (o : ObjectId) (uses : EntityUses)
  | antiCorruption (c : ContextId) (name : String) (kind : AntiCorruptionKind) (mapped : ContextId)
      (a : AggregateId)
  | translate (h : AntiCorruptionId) (name type : String) (a : AttributeId)
  | interInvariant (h : AntiCorruptionId) (name : String) (expression : Expr)
  | contextMap (name : String) (type : Option ContextMapType) (contexts : List ContextId)
  | relationship (h : ContextMapId) (r : Relationship)
  | upstreamDownstream (h : ContextMapId) (up down : ContextId)
  | partnership (h : ContextMapId) (a b : ContextId)

/-- The position of a new node. -/
def Builder.position {arena : Arena} (b : Build (Handle arena)) : Build (Option Nat) :=
  (some ·.index) <$> b

/-- A call that adds no node. -/
def Builder.silent (b : Build Unit) : Build (Option Nat) := (fun _ => none) <$> b

open Builder in
/-- Run a call; it gives the position of what it has added. -/
def Call.run : Call → Build (Option Nat)
  | .context name type => position (Builder.context name type)
  | .owner c team => silent (Builder.owner c team)
  | .realizes c realized => silent (Builder.realizes c realized)
  | .module c name => position (Builder.module c name)
  | .aggregate c name => position (Builder.aggregate c name)
  | .moduleAggregate h c name => position (Builder.moduleAggregate h c name)
  | .invariant a name e => silent (Builder.invariant a name e)
  | .object a name kind root => position (Builder.object a name kind root)
  | .entity a name => position (Builder.entity a name)
  | .rootEntity a name => position (Builder.rootEntity a name)
  | .valueObject a name => position (Builder.valueObject a name)
  | .domainEvent a name => position (Builder.domainEvent a name)
  | .lifecycleEnum a name => position (Builder.lifecycleEnum a name)
  | .plainAttribute o name type => position (Builder.plainAttribute o name type)
  | .keyAttribute o name type => position (Builder.keyAttribute o name type)
  | .attributeUses a binder used => silent (Builder.attributeUses a binder used)
  | .reference o name target kind => position (Builder.reference o name target kind)
  | .constructor o c => silent (Builder.constructor o c)
  | .operation o op => some <$> Builder.operation o op
  | .repository o r => silent (Builder.repository o r)
  | .entityMapping o mapping => silent (Builder.entityMapping o mapping)
  | .entityUses o uses => silent (Builder.entityUses o uses)
  | .antiCorruption c name kind mapped a => position (Builder.antiCorruption c name kind mapped a)
  | .translate h name type a => silent (Builder.translate h name type a)
  | .interInvariant h name e => silent (Builder.interInvariant h name e)
  | .contextMap name type contexts => position (Builder.contextMap name type contexts)
  | .relationship h r => position (Builder.relationship h r)
  | .upstreamDownstream h up down => position (Builder.upstreamDownstream h up down)
  | .partnership h a b => position (Builder.partnership h a b)

/-- Run calls one after the other. -/
def Builder.runAll (calls : List Call) : Build (List (Option Nat)) := calls.mapM Call.run

/-- **The model that a sequence of calls builds,** its expressions numbered. -/
def Builder.build (calls : List Call) : Except AnyHandle Model := do
  let (_, m) ← (Builder.runAll calls).run .empty
  return m.numbered

end DomainModel
