/-! # Types of expressions

A type is a name (a primitive, or a domain object of the aggregate under analysis), a collection or
an optional of a type, or one of three marks: `final` for a `final(…)` expression, `null` for the
null literal, and `error` for an expression whose problem has been reported. Names compare without
regard to the case of ASCII letters; letters beyond ASCII are not folded.

* `Ty.compatible`: whether two types may be compared or assigned.
* `Ty.acceptsNull`: whether `null` may stand for a value of the type.
-/

namespace DomainModel

/-- The type of an expression. -/
inductive Ty where
  | primitive (name : String)
  | entity (name : String)
  | collection (element : Ty)
  | optional (content : Ty)
  | final
  | null
  | error
deriving DecidableEq, Inhabited

/-- A name with its ASCII letters in lower case. -/
def foldCase (name : String) : List Char := name.toList.map Char.toLower

/-- Equality of names without regard to the case of ASCII letters. -/
def sameName (a b : String) : Bool := foldCase a == foldCase b

namespace Ty

def boolean : Ty := primitive "Boolean"
def string : Ty := primitive "String"
def integer : Ty := primitive "Integer"
def long : Ty := primitive "Long"
def float : Ty := primitive "Float"
def dateTime : Ty := primitive "DateTime"

/-- The primitive names that `null` may stand in for, in their exact spelling. -/
def nullableNames : List String :=
  ["String", "Integer", "Long", "Boolean", "Date", "DateTime", "Timestamp", "BigDecimal",
    "BigInteger", "Double", "Float"]

/-- The names of numeric types, in any case. -/
def numericNames : List String :=
  ["Integer", "Long", "Float", "Double", "BigInteger", "BigDecimal", "int"]

/-- The bare name of a primitive or entity type. -/
def name? : Ty → Option String
  | primitive n | entity n => some n
  | _ => none

def isError : Ty → Bool
  | error => true
  | _ => false

def isBoolean : Ty → Bool
  | primitive n => sameName n "Boolean"
  | _ => false

/-- A primitive whose name is numeric; an entity never is. -/
def isNumeric : Ty → Bool
  | primitive n => numericNames.any (sameName · n)
  | _ => false

def isCollection : Ty → Bool
  | collection _ => true
  | _ => false

def isOptional : Ty → Bool
  | optional _ => true
  | _ => false

/-- The element type of a collection, `error` for any other type. -/
def unwrapCollection : Ty → Ty
  | collection t => t
  | _ => error

/-- The content type of an optional, `error` for any other type. -/
def unwrapOptional : Ty → Ty
  | optional t => t
  | _ => error

/-- The type as messages show it. -/
def text : Ty → String
  | primitive n | entity n => n
  | collection t => s!"Collection<{t.text}>"
  | optional t => s!"Optional<{t.text}>"
  | final => "Final"
  | null => "null"
  | error => "Error"

/-- Whether `null` may stand for a value: for wrapped values always, for a named type if the name
is a nullable primitive or one of `entityNames`, case by case exact. -/
def acceptsNull (entityNames : List String) : Ty → Bool
  | collection _ | optional _ => true
  | primitive n | entity n => nullableNames.contains n || entityNames.contains n
  | final | null | error => false

/-- Two names denote compatible types: the same name, or two numeric primitives. -/
def sameOrNumeric (a b : Ty) : Bool :=
  match a.name?, b.name? with
  | some x, some y => sameName x y || (a.isNumeric && b.isNumeric)
  | _, _ => false

/-- **Compatibility.** An `error` goes with everything, `null` with the types that accept it,
wrappers go together when their contents do, names when they are equal up to case or both numeric.
-/
def compatible (entityNames : List String) : Ty → Ty → Bool
  | error, _ | _, error => true
  | null, null | final, final => true
  | null, t | t, null => acceptsNull entityNames t
  | collection a, collection b | optional a, optional b => compatible entityNames a b
  | a, b => sameOrNumeric a b

end Ty

end DomainModel
