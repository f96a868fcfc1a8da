import DomainModel.Expr.Basic

/-! # Numbering expressions

`numbered next e` gives the nodes of `e` consecutive numbers from `next` on, a node before its
children and the children in the order of their fields, lambda bodies in the order of the methods.
`count e` is the number of nodes, so what follows `e` is numbered from `next + count e`. -/

namespace DomainModel

mutual

/-- The number of nodes of an expression. -/
def Expr.count : Expr → Nat
  | ⟨_, .binary _ left right⟩ => 1 + left.count + right.count
  | ⟨_, .lone _ operand⟩ => 1 + operand.count
  | ⟨_, .negation operand⟩ => 1 + operand.count
  | ⟨_, .signed _ operand⟩ => 1 + operand.count
  | ⟨_, .ternary condition thenValue elseValue⟩ =>
    1 + condition.count + thenValue.count + elseValue.count
  | ⟨_, .path _ _ methods⟩ => 1 + Expr.countMethods methods
  | ⟨_, .parenthesized inner⟩ => 1 + inner.count
  | ⟨_, .final _⟩ | ⟨_, .number _⟩ | ⟨_, .string _⟩ | ⟨_, .bool _⟩ | ⟨_, .null⟩ | ⟨_, .now⟩ => 1

/-- The number of nodes in the lambda bodies of a method chain. -/
def Expr.countMethods : List Method → Nat
  | [] => 0
  | .simple _ :: methods => Expr.countMethods methods
  | .parametric _ _ body :: methods => body.count + Expr.countMethods methods

end

mutual

/-- The expression with its nodes numbered from `next` on. -/
def Expr.numbered (next : Nat) : Expr → Expr
  | ⟨_, .binary op left right⟩ =>
    ⟨.ofIndex next, .binary op (left.numbered (next + 1)) (right.numbered (next + 1 + left.count))⟩
  | ⟨_, .lone op operand⟩ => ⟨.ofIndex next, .lone op (operand.numbered (next + 1))⟩
  | ⟨_, .negation operand⟩ => ⟨.ofIndex next, .negation (operand.numbered (next + 1))⟩
  | ⟨_, .signed op operand⟩ => ⟨.ofIndex next, .signed op (operand.numbered (next + 1))⟩
  | ⟨_, .ternary condition thenValue elseValue⟩ =>
    ⟨.ofIndex next, .ternary (condition.numbered (next + 1))
      (thenValue.numbered (next + 1 + condition.count))
      (elseValue.numbered (next + 1 + condition.count + thenValue.count))⟩
  | ⟨_, .path head properties methods⟩ =>
    ⟨.ofIndex next, .path head properties (Expr.numberedMethods (next + 1) methods)⟩
  | ⟨_, .parenthesized inner⟩ => ⟨.ofIndex next, .parenthesized (inner.numbered (next + 1))⟩
  | ⟨_, .final chains⟩ => ⟨.ofIndex next, .final chains⟩
  | ⟨_, .number literal⟩ => ⟨.ofIndex next, .number literal⟩
  | ⟨_, .string value⟩ => ⟨.ofIndex next, .string value⟩
  | ⟨_, .bool value⟩ => ⟨.ofIndex next, .bool value⟩
  | ⟨_, .null⟩ => ⟨.ofIndex next, .null⟩
  | ⟨_, .now⟩ => ⟨.ofIndex next, .now⟩

/-- The method chain with the nodes of its lambda bodies numbered from `next` on. -/
def Expr.numberedMethods (next : Nat) : List Method → List Method
  | [] => []
  | .simple method :: methods => .simple method :: Expr.numberedMethods next methods
  | .parametric method binder body :: methods =>
    .parametric method binder (body.numbered next) ::
      Expr.numberedMethods (next + body.count) methods

end

/-- Number the items of a list one after the other. -/
def numberedList {α : Type} (count : α → Nat) (numbered : Nat → α → α) : Nat → List α → List α
  | _, [] => []
  | next, a :: as => numbered next a :: numberedList count numbered (next + count a) as

/-- The number of nodes in the items of a list. -/
def countList {α : Type} (count : α → Nat) (as : List α) : Nat :=
  as.foldr (fun a total => count a + total) 0

end DomainModel
