import DomainModel.Diagnostic.Format
import DomainModel.Json.Printer
import DomainModel.Model.Basic

/-! # Reports

Diagnostics as a reader sees them: as text, with the names of the nodes they point at, or as
JSON. -/

namespace DomainModel

/-- What a callable is of its object. -/
def Callable.part : Callable → String
  | constructor _ => "constructor of "
  | operation _ i => s!"operation #{i} of "

/-- The object that a callable belongs to. -/
def Callable.object : Callable → ObjectId
  | constructor object => object
  | operation object _ => object

namespace NodeRef

/-- The node of an arena that a node is, or that it is a part of. -/
def whole : NodeRef → AnyHandle
  | context id => id.any
  | contextMap id => id.any
  | relationship id => id.any
  | aggregate id => id.any
  | domainObject id => id.any
  | .attribute id => id.any
  | antiCorruption owner | attributeTranslation owner _ | interInvariant owner _ => owner.any
  | intraInvariant owner _ => owner.any
  | entityMapping entity | aliasDeclaration entity _ | attributeMapping entity _ => entity.any
  | callable c | parameter c _ | assignment c _ => c.object.any
  | expr id => id.any

/-- What a node is of the whole. -/
def part : NodeRef → String
  | attributeTranslation _ i => s!"attribute #{i} of "
  | interInvariant _ i | intraInvariant _ i => s!"invariant #{i} of "
  | entityMapping _ => "mapping of "
  | aliasDeclaration _ i => s!"alias #{i} of "
  | attributeMapping _ i => s!"mapped attribute #{i} of "
  | callable c => c.part
  | parameter c i => s!"parameter #{i} of {c.part}"
  | assignment c i => s!"assignment #{i} of {c.part}"
  | _ => ""

end NodeRef

namespace AnyHandle

/-- The name of a node for a reader. A node outside of the model has none, nor has an attribute that
lost its owner. -/
def describe? (m : Model) (h : AnyHandle) : Option String :=
  match h.arena with
  | .context => m.contexts[h.index]?.map fun c => s!"bounded context '{c.name}'"
  | .contextMap => m.contextMaps[h.index]?.map fun n => s!"context map '{n.name}'"
  | .relationship => some s!"relationship {h.text}"
  | .aggregate => m.aggregates[h.index]?.map fun a => s!"aggregate '{a.name}'"
  | .object => m.objects[h.index]?.map fun o => s!"{o.kind.text} '{o.name}'"
  | .attribute => do
    let a ← m.attributes[h.index]?
    let owner ← m.objects[a.owner.index]?
    return s!"attribute '{owner.name}.{a.name}'"
  | .antiCorruption => m.antiCorruptions[h.index]?.map fun d => s!"anti-corruption '{d.name}'"
  | .expr => some s!"expression {h.text}"
  | .module | .reference => none

/-- What a handle is a handle of. -/
def nodeName (h : AnyHandle) : String :=
  match h.arena with
  | .context => "Context"
  | .module => "Module"
  | .aggregate => "Aggregate"
  | .object => "DomainObject"
  | .attribute => "Attribute"
  | .reference => "Reference"
  | .antiCorruption => "AntiCorruption"
  | .contextMap => "ContextMap"
  | .relationship => "Relationship"
  | .expr => "Expr"

/-- A node outside of the model, where only its handle can be shown. -/
def outsideText (h : AnyHandle) : String :=
  s!"{h.nodeName} \x7b id: {h.arena.handleName}({h.index}) \x7d"

end AnyHandle

namespace NodeRef

variable (m : Model) (node : NodeRef)

/-- The name of a node for a reader; a node outside of the model has none. -/
def describe? : Option String := (node.whole.describe? m).map (node.part ++ ·)

/-- The name of a node for a reader, or its handle outside of the model. -/
def describe : String := node.part ++ (node.whole.describe? m).getD node.whole.outsideText

end NodeRef

namespace CommandLine

/-- A place on one line. -/
def placeLine (m : Model) (l : Location) : String :=
  let index := (l.index.map fun i => s!"[{i}]").getD ""
  s!"  --> {l.node.describe m} ({Vocabulary.word l.feature}{index})\n"

/-- A diagnostic as text: what it says, where, and what may help, on a line each. -/
def diagnosticText (m : Model) (d : Diagnostic) : String :=
  let place := (d.location.map (placeLine m)).getD ""
  let help := (d.suggestion.map fun s => s!"  = help: {s}\n").getD ""
  s!"{d.text}\n{place}{help}"

/-- Diagnostics as text. -/
def reportText (m : Model) (ds : List Diagnostic) : String :=
  String.join (ds.map (diagnosticText m))

/-- Diagnostics as JSON. -/
def reportJson (ds : List Diagnostic) : String := (Json.ofList Diagnostic.toJson ds).pretty ++ "\n"

end CommandLine

end DomainModel
