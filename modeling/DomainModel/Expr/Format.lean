import DomainModel.Expr.Basic
import DomainModel.Json.Record

/-! # Expressions as JSON

An expression is a tagged record, but no array: `expr` names its form, `id` holds its number (0 if
absent), and the other fields depend on the form. The four families of operators are forms of their
own; a missing right operand makes the form `lone`. -/

namespace DomainModel

open Json (ofList ofWord ofHandle)

/-! ## Writing -/

namespace BinaryOp

/-- The form that an operator belongs to. -/
def formName : BinaryOp → String
  | boolean _ => "boolean"
  | comparison _ => "comparison"
  | addition _ => "addition"
  | multiplication _ => "multiplication"

def toJson : BinaryOp → Json
  | boolean op => ofWord op
  | comparison op => ofWord op
  | addition op => ofWord op
  | multiplication op => ofWord op

end BinaryOp

def PathHead.toJson : PathHead → Json
  | .root => .string "root"
  | .variable name => .object [("variable", .string name)]
  | .query operation params =>
    .object
      [("query", .object [("operation", .string operation), ("params", ofList .string params)])]

mutual

/-- An expression as JSON, every field written. -/
def Expr.toJson : Expr → Json
  | ⟨id, form⟩ => .object (("id", ofHandle id) :: form.members)

/-- The members that depend on the form, the tag first. -/
def Form.members : Form → List (String × Json)
  | .binary op left right =>
    [("expr", .string op.formName), ("left", left.toJson), ("op", op.toJson),
      ("right", right.toJson)]
  | .lone op operand =>
    [("expr", .string op.formName), ("left", operand.toJson), ("op", op.toJson), ("right", .null)]
  | .negation operand => [("expr", .string "negation"), ("operand", operand.toJson)]
  | .signed op operand =>
    [("expr", .string "signed"), ("op", ofWord op), ("operand", operand.toJson)]
  | .ternary condition thenValue elseValue =>
    [("expr", .string "ternary"), ("condition", condition.toJson),
      ("then_value", thenValue.toJson), ("else_value", elseValue.toJson)]
  | .final chains =>
    [("expr", .string "final"),
      ("elements", ofList (fun chain => .object [("properties", ofList .string chain)]) chains)]
  | .path head properties methods =>
    [("expr", .string "path"), ("head", head.toJson), ("properties", ofList .string properties),
      ("methods", .array (Expr.methodsToJson methods))]
  | .parenthesized inner => [("expr", .string "parenthesized"), ("inner", inner.toJson)]
  | .number literal => [("expr", .string "number"), ("value", .string literal)]
  | .string value => [("expr", .string "string"), ("value", .string value)]
  | .bool value => [("expr", .string "bool"), ("value", .bool value)]
  | .null => [("expr", .string "null")]
  | .now => [("expr", .string "now")]

/-- The calls of a method chain. -/
def Expr.methodsToJson : List Method → List Json
  | [] => []
  | .simple method :: methods =>
    .object [("kind", .string "simple"), ("method", ofWord method)] :: Expr.methodsToJson methods
  | .parametric method binder body :: methods =>
    .object [("kind", .string "parametric"), ("method", ofWord method),
        ("variable", .string binder), ("body", body.toJson)] ::
      Expr.methodsToJson methods

end

/-! ## Reading -/

/-- The operator of a form, read with its own vocabulary; other forms have no such operator. -/
def BinaryOp.ofJson? (formName : String) (room : Nat) (v : Json) : Option BinaryOp :=
  match formName with
  | "boolean" => BinaryOp.boolean <$> Json.word true room v
  | "comparison" => BinaryOp.comparison <$> Json.word true room v
  | "addition" => BinaryOp.addition <$> Json.word true room v
  | "multiplication" => BinaryOp.multiplication <$> Json.word true room v
  | _ => none

/-- The arguments of a query. -/
def PathHead.queryOfJson? : Nat → Json → Option PathHead :=
  Json.record { needed := ["operation"], more := ["params"] } fun room ms => do
    return .query (← ms.required "operation" Json.toString?)
      (← ms.withDefault "params" [] (Json.strings room))

def PathHead.ofJson? (room : Nat) (v : Json) : Option PathHead := do
  match ← Json.choice room v with
  | ("root", held) => if Json.carriesNothing true held then some .root else none
  | ("variable", some v) => PathHead.variable <$> v.toString?
  | ("query", some v) => PathHead.queryOfJson? (room - 1) v
  | _ => none

/-- The property chain of one element of a `final(…)`. -/
def Form.chainOfJson? : Nat → Json → Option (List String) :=
  Json.record { needed := ["properties"] } fun room ms =>
    ms.required "properties" (Json.strings room)

/-- The tags of the forms in order. -/
def Form.tags : List String :=
  ["boolean", "comparison", "addition", "multiplication", "negation", "signed", "ternary", "final",
    "path", "parenthesized", "number", "string", "bool", "null", "now"]

/-- Read the form of an expression from its members, given readers for the expressions and the
method chains in it. -/
def Form.ofMembers? (readExpr : Json → Option Expr) (readMethods : Json → Option (List Method))
    (room : Nat) (ms : Json.Members) : Option Form := do
  match ← ms.tag tags "expr" with
  | "negation" => return .negation (← ms.required "operand" readExpr)
  | "signed" =>
    return .signed (← ms.required "op" (Json.word true room)) (← ms.required "operand" readExpr)
  | "ternary" =>
    return .ternary (← ms.required "condition" readExpr) (← ms.required "then_value" readExpr)
      (← ms.required "else_value" readExpr)
  | "final" => return .final (← ms.required "elements" (Json.list Form.chainOfJson? room))
  | "path" =>
    return .path (← ms.required "head" (PathHead.ofJson? room))
      (← ms.withDefault "properties" [] (Json.strings room))
      (← ms.withDefault "methods" [] readMethods)
  | "parenthesized" => return .parenthesized (← ms.required "inner" readExpr)
  | "number" => return .number (← ms.required "value" Json.toString?)
  | "string" => return .string (← ms.required "value" Json.toString?)
  | "bool" => return .bool (← ms.required "value" Json.toBool?)
  | "null" => return .null
  | "now" => return .now
  | name =>
    let left ← ms.required "left" readExpr
    let op ← ms.required "op" (BinaryOp.ofJson? name room)
    match ← ms.optional "right" readExpr with
    | some right => return .binary op left right
    | none => return .lone op left

/-- The tags of method calls in order. -/
def Method.tags : List String := ["simple", "parametric"]

/-- The fields of a method call in order. -/
def Method.layout? : String → Option Json.Layout
  | "simple" => some { needed := ["kind", "method"] }
  | "parametric" => some { needed := ["kind", "method", "variable", "body"] }
  | _ => none

/-- Read a method call from its members, given a reader for the lambda body. -/
def Method.ofMembers? (readExpr : Json → Option Expr) (room : Nat) (ms : Json.Members) :
    Option Method := do
  match ← ms.tag tags "kind" with
  | "simple" => return .simple (← ms.required "method" (Json.word true room))
  | "parametric" =>
    return .parametric (← ms.required "method" (Json.word true room))
      (← ms.required "variable" Json.toString?) (← ms.required "body" readExpr)
  | _ => none

mutual

/-- **Read an expression.** -/
def Expr.ofJson? : Nat → Json → Option Expr
  | room + 1, .object entries => do
    let ms : Json.Members := ⟨entries⟩
    if ms.othersFit ["id"] room then
      return ⟨← ms.withDefault "id" ⟨0⟩ Json.toHandle?,
        ← Form.ofMembers? (Expr.ofJson? room) (Expr.methodsOfJson? room) room ms⟩
    else none
  | _, _ => none

/-- Read a method chain. -/
def Expr.methodsOfJson? : Nat → Json → Option (List Method)
  | room + 1, .array items => items.mapM (Method.ofJson? room)
  | _, _ => none

/-- Read one call of a method chain. -/
def Method.ofJson? : Nat → Json → Option Method
  | room + 1, v =>
    Json.tagged Method.tags Method.layout?
      (fun _ ms => Method.ofMembers? (Expr.ofJson? room) room ms) (room + 1) v
  | 0, _ => none

end

end DomainModel
