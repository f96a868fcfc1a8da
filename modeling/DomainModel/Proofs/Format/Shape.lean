import DomainModel.Model.Format

/-! # Shapes and edits of texts

What the text of a model is made of, read off no reader: which records there are, which fields each
kind has, and what stands under a field (`RecordKind.fields`). Some fields of a tagged record depend
on its tag. A record that is given as an array has its fields in the order in which they are listed
here.

`Edit` is one change that the format is meant not to notice: the members of an object, at any depth,
in another order, or a scalar under a key that is no field of the record that it is put into. All
members of a tagged record are read before any of them is known to be a field, and all that is in
them as well. They are *buffered*, and a scalar that is put there has to be one that can be read. -/

namespace DomainModel

open Json (Members)

/-- The kinds of records. -/
inductive RecordKind where
  | model
  | context
  | module
  | contextMap
  | relationship
  | aggregate
  | invariant
  | complexType
  | parameter
  | constructorAssignment
  | constructor
  | leftValue
  | command
  | operation
  | repositoryOperation
  | repository
  | aliasDeclaration
  | attributePath
  | attributeMapping
  | entityMapping
  | entityUses
  | object
  | attributeUses
  | attribute
  | reference
  | attributeTranslation
  | antiCorruption
  | expr
  | chain
  | method
  | query
deriving DecidableEq

/-- What a value stands for. -/
inductive Shape where
  /-- A value without records in it: a scalar, a word, a choice, or an array of such values. -/
  | plain
  | record (kind : RecordKind)
  | list (item : Shape)
  /-- The head of a path: a choice that holds a record if it is a query. -/
  | pathHead
deriving DecidableEq

namespace RecordKind

/-- The fields that all records of a kind have. -/
def ownFields : RecordKind → List (String × Shape)
  | .model =>
    [("contexts", .list (.record .context)), ("modules", .list (.record .module)),
      ("aggregates", .list (.record .aggregate)), ("objects", .list (.record .object)),
      ("attributes", .list (.record .attribute)), ("references", .list (.record .reference)),
      ("anti_corruptions", .list (.record .antiCorruption)),
      ("context_maps", .list (.record .contextMap)),
      ("relationships", .list (.record .relationship))]
  | .context =>
    [("name", .plain), ("type", .plain), ("aggregates", .plain), ("modules", .plain),
      ("anti_corruptions", .plain), ("realizes", .plain), ("owner", .plain)]
  | .module => [("name", .plain), ("aggregates", .plain)]
  | .contextMap =>
    [("name", .plain), ("type", .plain), ("contexts", .plain), ("relationships", .plain)]
  | .relationship => [("kind", .plain)]
  | .aggregate =>
    [("name", .plain), ("context", .plain), ("objects", .plain),
      ("invariants", .list (.record .invariant))]
  | .invariant => [("name", .plain), ("expression", .record .expr)]
  | .complexType => [("collection", .plain), ("target", .plain)]
  | .parameter => [("name", .plain), ("type", .record .complexType)]
  | .constructorAssignment => [("attribute", .plain), ("expression", .record .expr)]
  | .constructor =>
    [("parameters", .list (.record .parameter)),
      ("assignments", .list (.record .constructorAssignment))]
  | .leftValue => [("variable", .plain), ("properties", .plain)]
  | .command => [("kind", .plain)]
  | .operation =>
    [("name", .plain), ("parameters", .list (.record .parameter)),
      ("return_type", .record .complexType), ("commands", .list (.record .command))]
  | .repositoryOperation =>
    [("name", .plain), ("parameters", .list (.record .parameter)),
      ("return_type", .record .complexType)]
  | .repository => [("name", .plain), ("operations", .list (.record .repositoryOperation))]
  | .aliasDeclaration => [("name", .plain), ("references", .plain)]
  | .attributePath => [("head", .plain), ("references", .plain), ("attribute", .plain)]
  | .attributeMapping => [("name", .plain), ("type", .plain), ("path", .record .attributePath)]
  | .entityMapping =>
    [("bounded_context", .plain), ("aggregate", .plain), ("entity", .plain),
      ("aliases", .list (.record .aliasDeclaration)),
      ("attributes", .list (.record .attributeMapping))]
  | .entityUses =>
    [("bounded_context", .plain), ("aggregate", .plain), ("value_object", .plain),
      ("anti_corruption", .plain), ("variable", .plain)]
  | .object =>
    [("name", .plain), ("aggregate", .plain), ("kind", .plain), ("aggregate_root", .plain),
      ("attributes", .plain), ("references", .plain), ("constructor", .record .constructor),
      ("repository", .record .repository), ("operations", .list (.record .operation))]
  | .attributeUses => [("variable", .plain), ("attribute", .plain)]
  | .attribute =>
    [("name", .plain), ("type", .plain), ("owner", .plain), ("key", .plain),
      ("uses", .record .attributeUses)]
  | .reference => [("name", .plain), ("owner", .plain), ("target", .plain), ("collection", .plain)]
  | .attributeTranslation =>
    [("name", .plain), ("type", .plain), ("entity", .plain), ("attribute", .plain),
      ("alias", .plain)]
  | .antiCorruption =>
    [("name", .plain), ("kind", .plain), ("owner", .plain), ("bounded_context", .plain),
      ("aggregate", .plain), ("attributes", .list (.record .attributeTranslation)),
      ("invariants", .list (.record .invariant))]
  | .expr => [("id", .plain), ("expr", .plain)]
  | .chain => [("properties", .plain)]
  | .method => [("kind", .plain)]
  | .query => [("operation", .plain), ("params", .plain)]

/-- The fields that a tagged record has because of its tag. -/
def variantFields : RecordKind → String → List (String × Shape)
  | .relationship, "symmetric" =>
    [("pattern", .plain), ("participant1", .plain), ("participant2", .plain)]
  | .relationship, "upstream_downstream" =>
    [("customer_supplier", .plain), ("upstream", .plain), ("downstream", .plain),
      ("upstream_roles", .plain), ("downstream_roles", .plain), ("exposed_aggregates", .plain)]
  | .command, "assignment" => [("left", .record .leftValue), ("right", .record .expr)]
  | .command, "other" => [("text", .plain)]
  | .object, "entity" => [("mapping", .record .entityMapping), ("uses", .record .entityUses)]
  | .object, "enum" => [("defines_aggregate_lifecycle", .plain)]
  | .expr, "boolean" | .expr, "comparison" | .expr, "addition" | .expr, "multiplication" =>
    [("left", .record .expr), ("op", .plain), ("right", .record .expr)]
  | .expr, "negation" => [("operand", .record .expr)]
  | .expr, "signed" => [("op", .plain), ("operand", .record .expr)]
  | .expr, "ternary" =>
    [("condition", .record .expr), ("then_value", .record .expr), ("else_value", .record .expr)]
  | .expr, "final" => [("elements", .list (.record .chain))]
  | .expr, "path" =>
    [("head", .pathHead), ("properties", .plain), ("methods", .list (.record .method))]
  | .expr, "parenthesized" => [("inner", .record .expr)]
  | .expr, "number" | .expr, "string" | .expr, "bool" => [("value", .plain)]
  | .method, "simple" => [("method", .plain)]
  | .method, "parametric" => [("method", .plain), ("variable", .plain), ("body", .record .expr)]
  | _, _ => []

/-- **The fields of a record** with what stands under them. -/
def fields (kind : RecordKind) (tag : Option String) : List (String × Shape) :=
  kind.ownFields ++ tag.elim [] kind.variantFields

/-- No kind of record has two fields of one name. -/
theorem nodup_fields (kind : RecordKind) (tag : Option String) :
    ((kind.fields tag).map (·.1)).Nodup := by
  have hown : (kind.ownFields.map (·.1)).Nodup := by cases kind <;> decide
  cases tag with
  | none => simpa [fields] using hown
  | some tag =>
    rw [fields, Option.elim_some]
    unfold variantFields
    split
    case h_22 => simpa using hown
    all_goals decide

/-- The key of the tag, if the record is tagged. -/
def tagKey : RecordKind → Option String
  | relationship | command | object | method => some "kind"
  | expr => some "expr"
  | _ => none

/-- The tags that numbers stand for. A record that may be read without anything around it being
buffered has its tag in words. -/
def numberedTags : RecordKind → List String
  | object => ObjectKind.tags
  | expr => Form.tags
  | method => Method.tags
  | _ => []

/-- The tag of a record with the given members. -/
def tag (kind : RecordKind) (ms : Members) : Option String :=
  kind.tagKey.bind (ms.tag kind.numberedTags)

/-- The tag of a record that is given as an array. -/
def itemsTag (kind : RecordKind) (items : List Json) : Option String :=
  kind.tagKey.bind fun _ => items.head?.bind (Json.toTag? kind.numberedTags)

/-- A record of the kind may be given as an array. -/
def isPositional : RecordKind → Bool
  | object | expr => false
  | _ => true

/-- The fields that the items of an array hold, one after another. -/
def itemFields (kind : RecordKind) (items : List Json) : List (String × Shape) :=
  if kind.isPositional then kind.fields (kind.itemsTag items) else []

/-- The fields of a tagged record that are read without waiting for the tag. -/
def directKeys : RecordKind → Option (List String)
  | relationship | command | method => some []
  | object => some DomainObject.sharedFields
  | expr => some ["id"]
  | _ => none

/-- The member of the key is read before it is known to be a field. -/
def buffers (kind : RecordKind) (key : String) : Bool :=
  kind.directKeys.any fun keys => !keys.contains key

/-- No field has the key. -/
def Unknown (kind : RecordKind) (ms : Members) (key : String) : Prop :=
  key ∉ (kind.fields (kind.tag ms)).map (·.1)

instance (kind : RecordKind) (ms : Members) (key : String) : Decidable (kind.Unknown ms key) :=
  inferInstanceAs (Decidable (_ ∉ _))

end RecordKind

namespace Shape

/-- What an item of an array stands for, given all of them and its position. -/
def item (items : List Json) (i : Nat) : Shape → Shape
  | list item => item
  | record kind => (kind.itemFields items)[i]?.elim plain (·.2)
  | _ => plain

/-- What stands under a key of an object with the given members. -/
def member (ms : Members) (key : String) : Shape → Shape
  | record kind => ((kind.fields (kind.tag ms)).lookup key).getD plain
  | pathHead => if key = "query" then record .query else plain
  | _ => plain

/-- The member of the key is read before it is known to be a field. -/
def buffers (key : String) : Shape → Bool
  | record kind => kind.buffers key
  | _ => false

/-- The item is the field of a record that is buffered. -/
def buffersItem (items : List Json) (i : Nat) : Shape → Bool
  | record kind => (kind.itemFields items)[i]?.any (kind.buffers ·.1)
  | _ => false

end Shape

/-- The value has no parts. A value that nothing denotes counts as such: it is a number or a string
that cannot be read. -/
def Json.isScalar : Json → Bool
  | array _ | object _ => false
  | _ => true

/-- **One edit of a value** of the given shape, which may be buffered by what is around it. -/
inductive Edit : Bool → Shape → Json → Json → Prop where
  /-- Members in another order. -/
  | permute {buffered : Bool} {shape : Shape} {ms ms' : List (String × Json)} (h : ms.Perm ms') :
    Edit buffered shape (.object ms) (.object ms')
  /-- A scalar under an unknown key of a record. -/
  | insert {buffered : Bool} {kind : RecordKind} {before after : List (String × Json)}
    {key : String} {v : Json} (hkey : kind.Unknown ⟨before ++ after⟩ key)
    (hscalar : v.isScalar = true)
    (hread : (buffered || kind.buffers key) = true → v ≠ .unreadable) :
    Edit buffered (.record kind) (.object (before ++ after)) (.object (before ++ (key, v) :: after))
  /-- An edit of an item. -/
  | inItem {buffered : Bool} {shape : Shape} {before after : List Json} {v v' : Json}
    (h : Edit (buffered || shape.buffersItem (before ++ v :: after) before.length)
      (shape.item (before ++ v :: after) before.length) v v') :
    Edit buffered shape (.array (before ++ v :: after)) (.array (before ++ v' :: after))
  /-- An edit of the value of a member. -/
  | inMember {buffered : Bool} {shape : Shape} {before after : List (String × Json)} {key : String}
    {v v' : Json}
    (h : Edit (buffered || shape.buffers key) (shape.member ⟨before ++ (key, v) :: after⟩ key)
      v v') :
    Edit buffered shape (.object (before ++ (key, v) :: after))
      (.object (before ++ (key, v') :: after))

end DomainModel
