import DomainModel.Handle
import DomainModel.Vocabulary

/-! # Expressions

The language of invariants and assignments: boolean, comparison and arithmetic operators, ternaries,
literals, `final(…)`, and paths. A path is a head, a chain of properties and a chain of methods,
some of which take a lambda. Expressions are owned trees; each node carries a number by which
diagnostics point at it.

An operator may lack its right operand, in which case the node only groups its left one: that is the
form `lone`. -/

namespace DomainModel

inductive BooleanOp where
  | and
  | or
deriving DecidableEq

inductive ComparisonOp where
  | eq
  | ne
  | lt
  | le
  | gt
  | ge
deriving DecidableEq

inductive AdditiveOp where
  | plus
  | minus
deriving DecidableEq

inductive MultiplicativeOp where
  | times
  | divide
  | modulo
deriving DecidableEq

instance : Vocabulary BooleanOp where
  values := [.and, .or]
  word
    | .and => "and"
    | .or => "or"
  find_word := by intro a; cases a <;> rfl

instance : Vocabulary ComparisonOp where
  values := [.eq, .ne, .lt, .le, .gt, .ge]
  word
    | .eq => "=="
    | .ne => "!="
    | .lt => "<"
    | .le => "<="
    | .gt => ">"
    | .ge => ">="
  find_word := by intro a; cases a <;> rfl

instance : Vocabulary AdditiveOp where
  values := [.plus, .minus]
  word
    | .plus => "+"
    | .minus => "-"
  find_word := by intro a; cases a <;> rfl

instance : Vocabulary MultiplicativeOp where
  values := [.times, .divide, .modulo]
  word
    | .times => "*"
    | .divide => "/"
    | .modulo => "%"
  find_word := by intro a; cases a <;> rfl

/-- An operator between two operands. -/
inductive BinaryOp where
  | boolean (op : BooleanOp)
  | comparison (op : ComparisonOp)
  | addition (op : AdditiveOp)
  | multiplication (op : MultiplicativeOp)
deriving DecidableEq

/-- A method without argument. -/
inductive SimpleMethod where
  | count
  | distinct
  | findAny
  | findFirst
  | isEmpty
  | get
deriving DecidableEq

instance : Vocabulary SimpleMethod where
  values := [.count, .distinct, .findAny, .findFirst, .isEmpty, .get]
  word
    | .count => "count"
    | .distinct => "distinct"
    | .findAny => "findAny"
    | .findFirst => "findFirst"
    | .isEmpty => "isEmpty"
    | .get => "get"
  find_word := by intro a; cases a <;> rfl

/-- A method that takes a lambda. -/
inductive ParametricMethod where
  | allMatch
  | anyMatch
  | noneMatch
  | filter
  | map
  | flatMap
deriving DecidableEq

instance : Vocabulary ParametricMethod where
  values := [.allMatch, .anyMatch, .noneMatch, .filter, .map, .flatMap]
  word
    | .allMatch => "allMatch"
    | .anyMatch => "anyMatch"
    | .noneMatch => "noneMatch"
    | .filter => "filter"
    | .map => "map"
    | .flatMap => "flatMap"
  find_word := by intro a; cases a <;> rfl

/-- The lambda of the method is a predicate and not a mapping. -/
def ParametricMethod.takesPredicate : ParametricMethod → Bool
  | .map | .flatMap => false
  | _ => true

/-- Where a path starts. -/
inductive PathHead where
  /-- The root entity of the aggregate. -/
  | root
  /-- A call of an operation of the root entity's repository, its arguments given by name. -/
  | query (operation : String) (params : List String)
  | variable (name : String)
deriving DecidableEq

mutual

/-- A numbered expression. -/
inductive Expr where
  | node (id : ExprId) (form : Form)

/-- The forms of an expression. -/
inductive Form where
  | binary (op : BinaryOp) (left right : Expr)
  /-- An operator without right operand: a mere grouping of the left one. -/
  | lone (op : BinaryOp) (operand : Expr)
  | negation (operand : Expr)
  | signed (op : AdditiveOp) (operand : Expr)
  | ternary (condition thenValue elseValue : Expr)
  /-- `final(…)` over property chains. -/
  | final (chains : List (List String))
  | path (head : PathHead) (properties : List String) (methods : List Method)
  | parenthesized (inner : Expr)
  /-- A decimal literal as written. -/
  | number (literal : String)
  | string (value : String)
  | bool (value : Bool)
  | null
  | now

/-- One call in the method chain of a path. -/
inductive Method where
  | simple (method : SimpleMethod)
  | parametric (method : ParametricMethod) (binder : String) (body : Expr)

end

namespace Expr

/-- The number of the node. -/
def id : Expr → ExprId
  | ⟨id, _⟩ => id

/-- The form of the node. -/
def form : Expr → Form
  | ⟨_, form⟩ => form

/-- A node that has not been numbered. -/
def unnumbered (form : Form) : Expr := ⟨⟨0⟩, form⟩

instance : Inhabited Expr := ⟨unnumbered .null⟩

end Expr

end DomainModel
