import DomainModel.Lookup

/-! # Navigating a model

The node of a handle, and the named and derived links between nodes: up from an object to its
context, down from a context to its aggregates, and by name within an aggregate, an object or a
context. A search by name finds the first node of that name. -/

namespace DomainModel.Model

variable (m : Model)

/-! ## Nodes -/

def context (h : ContextId) : Lookup BoundedContext := .node m.contexts h
def module (h : ModuleId) : Lookup Module := .node m.modules h
def aggregate (h : AggregateId) : Lookup Aggregate := .node m.aggregates h
def object (h : ObjectId) : Lookup DomainObject := .node m.objects h
def attributeOf (h : AttributeId) : Lookup Attribute := .node m.attributes h
def reference (h : ReferenceId) : Lookup Reference := .node m.references h
def antiCorruption (h : AntiCorruptionId) : Lookup AntiCorruption := .node m.antiCorruptions h
def contextMap (h : ContextMapId) : Lookup ContextMap := .node m.contextMaps h
def relationship (h : RelationshipId) : Lookup Relationship := .node m.relationships h

/-! ## All handles of an arena -/

def contextIds : List ContextId := Handle.firsts m.contexts.length
def aggregateIds : List AggregateId := Handle.firsts m.aggregates.length
def objectIds : List ObjectId := Handle.firsts m.objects.length
def antiCorruptionIds : List AntiCorruptionId := Handle.firsts m.antiCorruptions.length
def contextMapIds : List ContextMapId := Handle.firsts m.contextMaps.length

/-! ## Upwards -/

/-- The context that an aggregate belongs to. -/
def contextOfAggregate (a : AggregateId) : Lookup (Option ContextId) := do
  return (← m.aggregate a).context

/-- The context of the aggregate that an object belongs to. -/
def contextOfObject (o : ObjectId) : Lookup (Option ContextId) := do
  m.contextOfAggregate (← m.object o).aggregate

/-! ## Within an aggregate -/

/-- The first entity of the aggregate that is flagged as its root. -/
def rootEntity (a : AggregateId) : Lookup (Option ObjectId) := do
  Lookup.find? (fun o => return (← m.object o).isRootEntity) (← m.aggregate a).objects

def objectByName (a : AggregateId) (name : String) : Lookup (Option ObjectId) := do
  Lookup.find? (fun o => return (← m.object o).name == name) (← m.aggregate a).objects

/-- The names of the entities of an aggregate. -/
def entityNames (a : AggregateId) : Lookup (List String) := do
  let objects ← Lookup.map m.object (← m.aggregate a).objects
  return (objects.filter (·.isEntity)).map (·.name)

/-- The aggregate lists the object, which is an entity. -/
def listsEntity (a : AggregateId) (o : ObjectId) : Lookup Bool := do
  if (← m.aggregate a).objects.contains o then return (← m.object o).isEntity else return false

/-! ## Within an object -/

def attributeByName (o : ObjectId) (name : String) : Lookup (Option AttributeId) := do
  Lookup.find? (fun a => return (← m.attributeOf a).name == name) (← m.object o).attributes

def referenceByName (o : ObjectId) (name : String) : Lookup (Option ReferenceId) := do
  Lookup.find? (fun r => return (← m.reference r).name == name) (← m.object o).references

/-- The first key attribute of an object. -/
def keyAttribute (o : ObjectId) : Lookup (Option AttributeId) := do
  Lookup.find? (fun a => return (← m.attributeOf a).key) (← m.object o).attributes

/-- The root entity of an aggregate with its key attribute, if both exist. -/
def rootKey (a : AggregateId) : Lookup (Option (ObjectId × AttributeId)) := do
  match ← m.rootEntity a with
  | none => return none
  | some root => return (← m.keyAttribute root).map (root, ·)

/-! ## Within a context, and between contexts -/

/-- The aggregates of a context: its own, then those of its modules. -/
def contextAggregates (c : ContextId) : Lookup (List AggregateId) := do
  let context ← m.context c
  let inModules ← Lookup.flatMap (fun h => return (← m.module h).aggregates) context.modules
  return context.aggregates ++ inModules

def aggregateInContext (c : ContextId) (name : String) : Lookup (Option AggregateId) := do
  Lookup.find? (fun a => return (← m.aggregate a).name == name) (← m.contextAggregates c)

def antiCorruptionInContext (c : ContextId) (name : String) : Lookup (Option AntiCorruptionId) := do
  Lookup.find? (fun a => return (← m.antiCorruption a).name == name) (← m.context c).antiCorruptions

/-- The first context map that lists the context. -/
def contextMapOf (c : ContextId) : Lookup (Option ContextMapId) :=
  Lookup.find? (fun h => return (← m.contextMap h).contexts.contains c) m.contextMapIds

/-- The map declares `up` upstream of `down`. -/
def isUpstreamOf (h : ContextMapId) (up down : ContextId) : Lookup Bool := do
  Lookup.any
    (fun r => return (← m.relationship r).upstreamDownstream? == some (some up, some down))
    (← m.contextMap h).relationships

end DomainModel.Model
