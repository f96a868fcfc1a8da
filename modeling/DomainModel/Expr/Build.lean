import DomainModel.Expr.Basic

/-! # Building expressions

Functions that make expressions from their parts, for programs that assemble a model by calls. The
nodes they make are not numbered. -/

namespace DomainModel.Expr

def number (literal : String) : Expr := unnumbered (.number literal)
def string (value : String) : Expr := unnumbered (.string value)
def boolean (value : Bool) : Expr := unnumbered (.bool value)
def null : Expr := unnumbered .null
def now : Expr := unnumbered .now

def binary (op : BinaryOp) (left right : Expr) : Expr := unnumbered (.binary op left right)
def and (left right : Expr) : Expr := binary (.boolean .and) left right
def or (left right : Expr) : Expr := binary (.boolean .or) left right

def compare (left : Expr) (op : ComparisonOp) (right : Expr) : Expr :=
  binary (.comparison op) left right

def add (left : Expr) (op : AdditiveOp) (right : Expr) : Expr := binary (.addition op) left right

def multiply (left : Expr) (op : MultiplicativeOp) (right : Expr) : Expr :=
  binary (.multiplication op) left right

def not (operand : Expr) : Expr := unnumbered (.negation operand)
def signed (op : AdditiveOp) (operand : Expr) : Expr := unnumbered (.signed op operand)

def ternary (condition thenValue elseValue : Expr) : Expr :=
  unnumbered (.ternary condition thenValue elseValue)

def parenthesized (inner : Expr) : Expr := unnumbered (.parenthesized inner)
def finals (chains : List (List String)) : Expr := unnumbered (.final chains)

/-- A path without methods. -/
def path (head : PathHead) (properties : List String) : Expr :=
  unnumbered (.path head properties [])

def root (properties : List String) : Expr := path .root properties
def var (name : String) (properties : List String) : Expr := path (.variable name) properties

def query (operation : String) (params properties : List String) : Expr :=
  path (.query operation params) properties

/-- Append a method to a path; any other expression stays as it is. -/
def call (target : Expr) (method : Method) : Expr :=
  match target with
  | ⟨id, .path head properties methods⟩ => ⟨id, .path head properties (methods ++ [method])⟩
  | other => other

def callSimple (target : Expr) (method : SimpleMethod) : Expr := target.call (.simple method)

def callLambda (target : Expr) (method : ParametricMethod) (binder : String) (body : Expr) :
    Expr :=
  target.call (.parametric method binder body)

end DomainModel.Expr
