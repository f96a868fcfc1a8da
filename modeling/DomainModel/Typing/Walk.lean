import DomainModel.Typing.Env

/-! # Walking property chains

A property chain starts at a domain object. A single-valued reference leads on to its target; a
collection reference or an attribute ends the chain, so a property behind it cannot be resolved. An
entity with a uses binding lends its place to the used value object: its properties are looked up
there. A reference goes before an attribute of the same name, even if it leads nowhere. -/

namespace DomainModel

/-- Where one property leads. -/
inductive Step where
  /-- On to an object. -/
  | object (o : ObjectId)
  /-- To a value that has no properties. -/
  | terminal (type : Ty)
  | nowhere
deriving DecidableEq

namespace Model

variable (m : Model)

/-- The object whose members are the properties of `o`. -/
def propertyOwner (o : ObjectId) : Lookup ObjectId := do
  let object ← m.object o
  return (object.uses?.bind (·.valueObject)).getD o

/-- Follow one property of an object. -/
def step (o : ObjectId) (property : String) : Lookup Step := do
  let owner ← m.propertyOwner o
  match ← m.referenceByName owner property with
  | some r =>
    let reference ← m.reference r
    match reference.target with
    | none => return .nowhere
    | some target =>
      if reference.collection.isCollection then
        return .terminal (.collection (.entity (← m.object target).name))
      else return .object target
  | none =>
    match ← m.attributeByName owner property with
    | some a => return .terminal (.primitive (← m.attributeOf a).type)
    | none => return .nowhere

/-- Follow a chain whose first property has the given position. -/
def walkFrom (position : Nat) (o : ObjectId) : List String → Lookup (Except Nat Ty)
  | [] => return .ok (.entity (← m.object o).name)
  | property :: rest => do
    match ← m.step o property with
    | .object target => walkFrom (position + 1) target rest
    | .terminal type =>
      match rest with
      | [] => return .ok type
      | _ :: _ => return .error (position + 1)
    | .nowhere => return .error position

/-- **The type at the end of a property chain**, or the position of the first property that cannot be
resolved. -/
def walk (o : ObjectId) (properties : List String) : Lookup (Except Nat Ty) :=
  m.walkFrom 0 o properties

end Model

end DomainModel
