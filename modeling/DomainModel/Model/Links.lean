import DomainModel.Model.Basic

/-! # Links of a model

`Model.links` lists every handle that a model stores, each with the node that holds it, in the order
in which they are checked. A model is `Linked` if all of them point inside their arenas;
`Model.dangling?` finds the first one that does not. -/

namespace DomainModel

/-- The node that holds a link, as it is named to the user. -/
inductive Owner where
  | context (name : String) (index : Nat)
  | module (name : String)
  | aggregate (name : String)
  | object (name : String)
  | attributeOf (name : String)
  | reference (name : String)
  | antiCorruption (name : String)
  | contextMap (name : String)
  | relationship (index : Nat)
deriving DecidableEq

/-- The node as messages name it. -/
def Owner.text : Owner → String
  | context name index => s!"bounded context '{name}' (#{index})"
  | module name => name
  | aggregate name => s!"aggregate '{name}'"
  | object name => s!"domain object '{name}'"
  | attributeOf name => s!"attribute '{name}'"
  | reference name => s!"reference '{name}'"
  | antiCorruption name => s!"anti-corruption '{name}'"
  | contextMap name => s!"context map '{name}'"
  | relationship index => s!"relationship #{index}"

/-- A handle and the node that holds it. -/
structure Link where
  owner : Owner
  handle : AnyHandle
deriving DecidableEq

/-- What is wrong with a link that points nowhere. -/
def Link.message (l : Link) : String :=
  s!"{l.owner.text} refers to {l.handle.text}, which does not exist"

/-- Handles of one arena without their type. -/
def anyHandles {arena : Arena} (hs : List (Handle arena)) : List AnyHandle := hs.map Handle.any

/-! ## The handles of each node -/

namespace ComplexType

def handles (t : ComplexType) : List AnyHandle :=
  match t.target with
  | .domainObject o => anyHandles o.toList
  | .primitive _ => []

end ComplexType

/-- The handles of parameters and a return type. -/
def signatureHandles (parameters : List Parameter) (returnType : Option ComplexType) :
    List AnyHandle :=
  parameters.flatMap (·.type.handles) ++ returnType.toList.flatMap ComplexType.handles

namespace EntityMapping

def handles (e : EntityMapping) : List AnyHandle :=
  anyHandles e.entity.toList ++ e.aliases.flatMap (anyHandles ·.references) ++
    e.attributes.flatMap (anyHandles ·.path.references)

end EntityMapping

namespace EntityUses

def handles (u : EntityUses) : List AnyHandle :=
  anyHandles u.boundedContext.toList ++ anyHandles u.aggregate.toList ++
    anyHandles u.valueObject.toList

end EntityUses

namespace ObjectKind

def handles : ObjectKind → List AnyHandle
  | entity data =>
    data.mapping.toList.flatMap EntityMapping.handles ++ data.uses.toList.flatMap EntityUses.handles
  | _ => []

end ObjectKind

namespace BoundedContext

def handles (c : BoundedContext) : List AnyHandle :=
  anyHandles c.aggregates ++ anyHandles c.modules ++ anyHandles c.antiCorruptions ++
    anyHandles c.realizes ++ anyHandles c.owner.toList

end BoundedContext

namespace Aggregate

def handles (a : Aggregate) : List AnyHandle :=
  anyHandles a.context.toList ++ anyHandles a.objects

end Aggregate

namespace DomainObject

/-- The handles in the signatures of the constructor, the operations and the queries. -/
def signatures (o : DomainObject) : List AnyHandle :=
  o.constructor.toList.flatMap (signatureHandles ·.parameters none) ++
    o.operations.flatMap (fun p => signatureHandles p.parameters p.returnType) ++
    (o.repository.toList.flatMap (·.operations)).flatMap
      (fun q => signatureHandles q.parameters q.returnType)

def handles (o : DomainObject) : List AnyHandle :=
  o.aggregate.any :: (anyHandles o.attributes ++ anyHandles o.references ++ o.kind.handles ++
    o.signatures)

end DomainObject

namespace Reference

def handles (r : Reference) : List AnyHandle := r.owner.any :: anyHandles r.target.toList

end Reference

namespace AntiCorruption

def handles (a : AntiCorruption) : List AnyHandle :=
  a.owner.any :: (anyHandles a.boundedContext.toList ++ anyHandles a.aggregate.toList ++
    a.attributes.flatMap fun t => anyHandles t.entity.toList ++ anyHandles t.entityAttribute.toList)

end AntiCorruption

namespace ContextMap

def handles (h : ContextMap) : List AnyHandle :=
  anyHandles h.contexts ++ anyHandles h.relationships

end ContextMap

namespace Relationship

def handles (r : Relationship) : List AnyHandle :=
  anyHandles r.participants.1.toList ++ anyHandles r.participants.2.toList ++
    match r with
    | upstreamDownstream s => anyHandles s.exposedAggregates
    | symmetric .. => []

end Relationship

/-! ## The links of a model -/

namespace Model

variable (m : Model)

/-- The links that a node holds. -/
def linksOf (owner : Owner) (handles : List AnyHandle) : List Link := handles.map (Link.mk owner)

/-- **All links of a model,** in the order in which they are checked. -/
def links : List Link :=
  m.contexts.zipIdx.flatMap (fun (c, i) => linksOf (.context c.name i) c.handles) ++
  m.modules.flatMap (fun h => linksOf (.module h.name) (anyHandles h.aggregates)) ++
  m.aggregates.flatMap (fun a => linksOf (.aggregate a.name) a.handles) ++
  m.objects.flatMap (fun o => linksOf (.object o.name) o.handles) ++
  m.attributes.flatMap (fun a => linksOf (.attributeOf a.name) [a.owner.any]) ++
  m.references.flatMap (fun r => linksOf (.reference r.name) r.handles) ++
  m.antiCorruptions.flatMap (fun a => linksOf (.antiCorruption a.name) a.handles) ++
  m.contextMaps.flatMap (fun h => linksOf (.contextMap h.name) h.handles) ++
  m.relationships.zipIdx.flatMap (fun (r, i) => linksOf (.relationship i) r.handles)

/-- **Every link points inside its arena.** -/
def Linked : Prop := ∀ l ∈ m.links, m.Holds l.handle

instance : Decidable m.Linked := inferInstanceAs (Decidable (∀ l ∈ m.links, m.Holds l.handle))

/-- The first link that points nowhere. -/
def dangling? : Option Link := m.links.find? (fun l => !decide (m.Holds l.handle))

theorem dangling?_eq_none : m.dangling? = none ↔ m.Linked := by
  simp [dangling?, Linked]

end Model

end DomainModel
