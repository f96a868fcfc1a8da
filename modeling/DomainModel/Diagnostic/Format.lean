import DomainModel.Diagnostic.Basic
import DomainModel.Json.Record

/-! # Diagnostics as JSON

A place is a tagged record: `node` names the kind of node, and the other fields address it. What a
diagnostic does not have is left out. -/

namespace DomainModel

open Json (ofHandle ofNat ofWord)

namespace Callable

def toJson : Callable → Json
  | constructor object => .object [("kind", .string "constructor"), ("object", ofHandle object)]
  | operation object index =>
    .object [("kind", .string "operation"), ("object", ofHandle object), ("index", ofNat index)]

/-- The tags in order. -/
def tags : List String := ["constructor", "operation"]

/-- The fields in order. -/
def layout? : String → Option Json.Layout
  | "constructor" => some { needed := ["kind", "object"] }
  | "operation" => some { needed := ["kind", "object", "index"] }
  | _ => none

/-- A callable, which is read as a part of a place. -/
def ofJson? : Nat → Json → Option Callable :=
  Json.tagged tags layout? fun _ ms => do
    match ← ms.tag tags "kind" with
    | "constructor" => return constructor (← ms.required "object" Json.toHandle?)
    | "operation" =>
      return operation (← ms.required "object" Json.toHandle?) (← ms.required "index" Json.toIndex?)
    | _ => none

end Callable

namespace NodeRef

/-- A place of the kind `kind` with the given fields. -/
def record (kind : String) (fields : List (String × Json)) : Json :=
  .object (("node", .string kind) :: fields)

def toJson : NodeRef → Json
  | context id => record "context" [("id", ofHandle id)]
  | contextMap id => record "context_map" [("id", ofHandle id)]
  | relationship id => record "relationship" [("id", ofHandle id)]
  | aggregate id => record "aggregate" [("id", ofHandle id)]
  | domainObject id => record "domain_object" [("id", ofHandle id)]
  | .attribute id => record "attribute" [("id", ofHandle id)]
  | antiCorruption id => record "anti_corruption" [("id", ofHandle id)]
  | attributeTranslation owner index =>
    record "attribute_translation" [("owner", ofHandle owner), ("index", ofNat index)]
  | interInvariant owner index =>
    record "inter_invariant" [("owner", ofHandle owner), ("index", ofNat index)]
  | intraInvariant owner index =>
    record "intra_invariant" [("aggregate", ofHandle owner), ("index", ofNat index)]
  | entityMapping entity => record "entity_mapping" [("entity", ofHandle entity)]
  | aliasDeclaration entity index =>
    record "alias_declaration" [("entity", ofHandle entity), ("index", ofNat index)]
  | attributeMapping entity index =>
    record "attribute_mapping" [("entity", ofHandle entity), ("index", ofNat index)]
  | callable c => record "callable" [("callable", c.toJson)]
  | parameter c index => record "parameter" [("callable", c.toJson), ("index", ofNat index)]
  | assignment c index => record "assignment" [("callable", c.toJson), ("index", ofNat index)]
  | expr id => record "expr" [("id", ofHandle id)]

/-- The fields in order. -/
def layout? : String → Option Json.Layout
  | "context" | "context_map" | "relationship" | "aggregate" | "domain_object" | "attribute"
  | "anti_corruption" | "expr" => some { needed := ["node", "id"] }
  | "attribute_translation" | "inter_invariant" => some { needed := ["node", "owner", "index"] }
  | "intra_invariant" => some { needed := ["node", "aggregate", "index"] }
  | "entity_mapping" => some { needed := ["node", "entity"] }
  | "alias_declaration" | "attribute_mapping" => some { needed := ["node", "entity", "index"] }
  | "callable" => some { needed := ["node", "callable"] }
  | "parameter" | "assignment" => some { needed := ["node", "callable", "index"] }
  | _ => none

def ofJson? : Nat → Json → Option NodeRef :=
  Json.tagged [] layout? fun room ms => do
    let id {arena : Arena} (key : String) : Option (Handle arena) := ms.required key Json.toHandle?
    let index := ms.required "index" Json.toIndex?
    let target := ms.required "callable" (Callable.ofJson? room)
    match ← ms.tag [] "node" with
    | "context" => return context (← id "id")
    | "context_map" => return contextMap (← id "id")
    | "relationship" => return relationship (← id "id")
    | "aggregate" => return aggregate (← id "id")
    | "domain_object" => return domainObject (← id "id")
    | "attribute" => return .attribute (← id "id")
    | "anti_corruption" => return antiCorruption (← id "id")
    | "attribute_translation" => return attributeTranslation (← id "owner") (← index)
    | "inter_invariant" => return interInvariant (← id "owner") (← index)
    | "intra_invariant" => return intraInvariant (← id "aggregate") (← index)
    | "entity_mapping" => return entityMapping (← id "entity")
    | "alias_declaration" => return aliasDeclaration (← id "entity") (← index)
    | "attribute_mapping" => return attributeMapping (← id "entity") (← index)
    | "callable" => return callable (← target)
    | "parameter" => return parameter (← target) (← index)
    | "assignment" => return assignment (← target) (← index)
    | "expr" => return expr (← id "id")
    | _ => none

end NodeRef

/-- A member that is left out when there is no value. -/
def optionalMember {α : Type} (key : String) (encode : α → Json) (value : Option α) :
    List (String × Json) :=
  value.toList.map fun a => (key, encode a)

def Location.toJson (l : Location) : Json :=
  .object ([("node", l.node.toJson), ("feature", ofWord l.feature)] ++
    optionalMember "index" ofNat l.index)

namespace Diagnostic

def toJson (d : Diagnostic) : Json :=
  .object ([("severity", ofWord d.severity), ("message", .string d.message)] ++
    optionalMember "location" Location.toJson d.location ++
    optionalMember "suggestion" .string d.suggestion)

end Diagnostic

end DomainModel
