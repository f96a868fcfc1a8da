import DomainModel.Proofs.Nodes

/-! # Names and numbers in expressions

`e.names` are the names of variables that occur in an expression: at the heads of paths, as
arguments of queries and as variables of lambdas. Types and objects have names as well, but those
stand in no expression. `e.renamed r` replaces the names of variables by the map `r`, and
`e.renumbered f` the numbers of the nodes by `f`.

Of two scopes `Scope.AgreesOn` says that they have the same variables among some names, and
`Scope.Renames` that they do once the names are replaced. A problem may quote the name of a
variable, and `Problem.renamed` replaces it there. -/

namespace DomainModel

/-! ### Names -/

/-- The names that the head of a path asks for. -/
def PathHead.names : PathHead → List String
  | root => []
  | query _ params => params
  | «variable» name => [name]

/-- The variables that the lambdas of a chain of methods bind. -/
def Expr.binders : List Method → List String
  | [] => []
  | .simple _ :: methods => binders methods
  | .parametric _ binder _ :: methods => binder :: binders methods

/-- The names that occur in a form, its parts apart. -/
def Form.names : Form → List String
  | .path head _ methods => head.names ++ Expr.binders methods
  | _ => []

/-- **The names that occur in an expression:** of variables, of arguments of queries, and of the
variables of lambdas. -/
def Expr.names (e : Expr) : List String := e.nodes.flatMap (·.form.names)

theorem Expr.names_form_subset (e : Expr) : e.form.names ⊆ e.names :=
  fun _ h => List.mem_flatMap.mpr ⟨e, e.mem_nodes_self, h⟩

theorem Expr.names_child_subset {e c : Expr} (hc : c ∈ e.children) : c.names ⊆ e.names := by
  intro name h
  obtain ⟨n, hn, hname⟩ := List.mem_flatMap.mp h
  exact List.mem_flatMap.mpr ⟨n, Expr.mem_nodes_of_child hc hn, hname⟩

/-! ### Renumbering -/

mutual

/-- The expression with other numbers. -/
def Expr.renumbered (f : ExprId → ExprId) : Expr → Expr
  | ⟨id, form⟩ => ⟨f id, form.renumbered f⟩

/-- The form with other numbers in its parts. -/
def Form.renumbered (f : ExprId → ExprId) : Form → Form
  | .binary op left right => .binary op (left.renumbered f) (right.renumbered f)
  | .lone op operand => .lone op (operand.renumbered f)
  | .negation operand => .negation (operand.renumbered f)
  | .signed op operand => .signed op (operand.renumbered f)
  | .ternary condition thenValue elseValue =>
    .ternary (condition.renumbered f) (thenValue.renumbered f) (elseValue.renumbered f)
  | .final chains => .final chains
  | .path head properties methods => .path head properties (Expr.renumberedMethods f methods)
  | .parenthesized inner => .parenthesized (inner.renumbered f)
  | .number literal => .number literal
  | .string value => .string value
  | .bool value => .bool value
  | .null => .null
  | .now => .now

/-- The methods with other numbers in their lambda bodies. -/
def Expr.renumberedMethods (f : ExprId → ExprId) : List Method → List Method
  | [] => []
  | .simple method :: methods => .simple method :: Expr.renumberedMethods f methods
  | .parametric method binder body :: methods =>
    .parametric method binder (body.renumbered f) :: Expr.renumberedMethods f methods

end

mutual

@[simp] theorem Expr.renumbered_id : ∀ e : Expr, e.renumbered id = e
  | ⟨_, form⟩ => by rw [Expr.renumbered, Form.renumbered_id form, id]

@[simp] theorem Form.renumbered_id : ∀ form : Form, form.renumbered id = form
  | .binary _ left right => by
    rw [Form.renumbered, Expr.renumbered_id left, Expr.renumbered_id right]
  | .lone _ operand | .negation operand | .signed _ operand | .parenthesized operand => by
    rw [Form.renumbered, Expr.renumbered_id operand]
  | .ternary condition thenValue elseValue => by
    rw [Form.renumbered, Expr.renumbered_id condition, Expr.renumbered_id thenValue,
      Expr.renumbered_id elseValue]
  | .path _ _ methods => by rw [Form.renumbered, Expr.renumberedMethods_id methods]
  | .final _ | .number _ | .string _ | .bool _ | .null | .now => by rw [Form.renumbered]

@[simp] theorem Expr.renumberedMethods_id :
    ∀ methods : List Method, Expr.renumberedMethods id methods = methods
  | [] => by rw [Expr.renumberedMethods]
  | .simple _ :: methods => by
    rw [Expr.renumberedMethods, Expr.renumberedMethods_id methods]
  | .parametric _ _ body :: methods => by
    rw [Expr.renumberedMethods, Expr.renumbered_id body, Expr.renumberedMethods_id methods]

end

/-! ### Renaming -/

/-- The head with other names of variables. -/
def PathHead.renamed (r : String → String) : PathHead → PathHead
  | root => root
  | query operation params => query operation (params.map r)
  | «variable» name => «variable» (r name)

mutual

/-- The expression with other names of variables. -/
def Expr.renamed (r : String → String) : Expr → Expr
  | ⟨id, form⟩ => ⟨id, form.renamed r⟩

/-- The form with other names of variables. -/
def Form.renamed (r : String → String) : Form → Form
  | .binary op left right => .binary op (left.renamed r) (right.renamed r)
  | .lone op operand => .lone op (operand.renamed r)
  | .negation operand => .negation (operand.renamed r)
  | .signed op operand => .signed op (operand.renamed r)
  | .ternary condition thenValue elseValue =>
    .ternary (condition.renamed r) (thenValue.renamed r) (elseValue.renamed r)
  | .final chains => .final chains
  | .path head properties methods =>
    .path (head.renamed r) properties (Expr.renamedMethods r methods)
  | .parenthesized inner => .parenthesized (inner.renamed r)
  | .number literal => .number literal
  | .string value => .string value
  | .bool value => .bool value
  | .null => .null
  | .now => .now

/-- The methods with other names of variables, those of their lambdas included. -/
def Expr.renamedMethods (r : String → String) : List Method → List Method
  | [] => []
  | .simple method :: methods => .simple method :: Expr.renamedMethods r methods
  | .parametric method binder body :: methods =>
    .parametric method (r binder) (body.renamed r) :: Expr.renamedMethods r methods

end

theorem PathHead.renamed_id (head : PathHead) : head.renamed id = head := by
  cases head with
  | query operation params => rw [renamed, List.map_id]
  | _ => rfl

mutual

theorem Expr.renamed_id : ∀ e : Expr, e.renamed id = e
  | ⟨_, form⟩ => by rw [Expr.renamed, Form.renamed_id form]

theorem Form.renamed_id : ∀ form : Form, form.renamed id = form
  | .binary _ left right => by
    rw [Form.renamed, Expr.renamed_id left, Expr.renamed_id right]
  | .lone _ operand | .negation operand | .signed _ operand | .parenthesized operand => by
    rw [Form.renamed, Expr.renamed_id operand]
  | .ternary condition thenValue elseValue => by
    rw [Form.renamed, Expr.renamed_id condition, Expr.renamed_id thenValue,
      Expr.renamed_id elseValue]
  | .path head _ methods => by
    rw [Form.renamed, head.renamed_id, Expr.renamedMethods_id methods]
  | .final _ | .number _ | .string _ | .bool _ | .null | .now => by rw [Form.renamed]

theorem Expr.renamedMethods_id : ∀ methods : List Method, Expr.renamedMethods id methods = methods
  | [] => by rw [Expr.renamedMethods]
  | .simple _ :: methods => by rw [Expr.renamedMethods, Expr.renamedMethods_id methods]
  | .parametric _ _ body :: methods => by
    rw [Expr.renamedMethods, Expr.renamed_id body, Expr.renamedMethods_id methods, id]

end

/-! ### Scopes -/

/-- The scopes have the same variables among the names. -/
def Scope.AgreesOn (names : List String) (s' s : Scope) : Prop :=
  ∀ name ∈ names, s'.lookup name = s.lookup name

namespace Scope

variable {names names' : List String} {s' s : Scope}

/-- The first scope has the variables of the second among the names, under other names. -/
structure Renames (r : String → String) (names : List String) (s' s : Scope) : Prop where
  injective : ∀ a ∈ names, ∀ b ∈ names, r a = r b → a = b
  lookup : ∀ name ∈ names, s'.lookup (r name) = s.lookup name

variable {r : String → String}

theorem AgreesOn.renames (h : AgreesOn names s' s) : Renames id names s' s :=
  ⟨fun _ _ _ _ hab => hab, h⟩

theorem Renames.mono (h : Renames r names s' s) (hsub : names' ⊆ names) :
    Renames r names' s' s :=
  ⟨fun a ha b hb => h.injective a (hsub ha) b (hsub hb),
    fun name hname => h.lookup name (hsub hname)⟩

/-- A lambda is entered under the new name of its variable. -/
theorem Renames.child (h : Renames r names s' s) {bound : String} (hbound : bound ∈ names)
    (type : Ty) : Renames r names (child s' (r bound) type) (child s bound type) := by
  refine ⟨h.injective, fun name hname => ?_⟩
  have hsame : (r bound == r name) = (bound == name) := by
    by_cases hn : bound = name
    · rw [hn, beq_self_eq_true, beq_self_eq_true]
    · rw [beq_false_of_ne hn, beq_false_of_ne fun hr => hn (h.injective _ hbound _ hname hr)]
  rw [Scope.lookup, Scope.lookup, hsame, h.lookup name hname]

end Scope

/-! ### Problems -/

namespace Problem

/-- The problem with another name where it quotes the name of a variable. -/
def renamed (r : String → String) : Problem → Problem
  | variableInInvariant name => variableInInvariant (r name)
  | undeclaredTranslationAttribute name => undeclaredTranslationAttribute (r name)
  | undeclaredParameter name => undeclaredParameter (r name)
  | undeclaredLocal name => undeclaredLocal (r name)
  | headNotObject name => headNotObject (r name)
  | undeclaredQueryParam name => undeclaredQueryParam (r name)
  | queryParamType name => queryParamType (r name)
  | variableRebound name => variableRebound (r name)
  | p => p

theorem renamed_id (p : Problem) : p.renamed id = p := by
  cases p with
  | _ => rfl

end Problem

end DomainModel
