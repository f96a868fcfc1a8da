import DomainModel.Model.Numbering
import DomainModel.Rules.Callable

/-! # The nodes of expressions

`e.nodes` are all nodes of an expression, a node before its parts, and `m.exprNodes` those of all
expressions of a model, in the order in which they are numbered. A node is known by its number:
the nodes of an expression that is numbered from `next` on have the numbers from `next` on, one
after the other (`ids_numbered`), and those of a numbered model have the numbers from 0 on
(`ids_exprNodes`). -/

namespace DomainModel

/-! ### Expressions -/

namespace Expr

/-- The lambda bodies of a chain of methods. -/
def bodies : List Method → List Expr
  | [] => []
  | .simple _ :: methods => bodies methods
  | .parametric _ _ body :: methods => body :: bodies methods

/-- The direct parts of an expression, in their order. -/
def children : Expr → List Expr
  | ⟨_, .binary _ left right⟩ => [left, right]
  | ⟨_, .lone _ operand⟩ | ⟨_, .negation operand⟩ | ⟨_, .signed _ operand⟩
  | ⟨_, .parenthesized operand⟩ => [operand]
  | ⟨_, .ternary condition thenValue elseValue⟩ => [condition, thenValue, elseValue]
  | ⟨_, .path _ _ methods⟩ => bodies methods
  | ⟨_, .final _⟩ | ⟨_, .number _⟩ | ⟨_, .string _⟩ | ⟨_, .bool _⟩ | ⟨_, .null⟩ | ⟨_, .now⟩ => []

mutual

/-- All nodes of an expression, a node before its parts. -/
def nodes : Expr → List Expr
  | ⟨id, form⟩ => ⟨id, form⟩ :: formNodes form

/-- The nodes in the parts of a form. -/
def formNodes : Form → List Expr
  | .binary _ left right => left.nodes ++ right.nodes
  | .lone _ operand | .negation operand | .signed _ operand | .parenthesized operand =>
    operand.nodes
  | .ternary condition thenValue elseValue =>
    condition.nodes ++ (thenValue.nodes ++ elseValue.nodes)
  | .path _ _ methods => methodNodes methods
  | .final _ | .number _ | .string _ | .bool _ | .null | .now => []

/-- The nodes in the lambda bodies of a chain of methods. -/
def methodNodes : List Method → List Expr
  | [] => []
  | .simple _ :: methods => methodNodes methods
  | .parametric _ _ body :: methods => body.nodes ++ methodNodes methods

end

theorem methodNodes_eq (methods : List Method) :
    methodNodes methods = (bodies methods).flatMap nodes := by
  induction methods with
  | nil => rfl
  | cons first rest ih =>
    cases first with
    | simple method => exact ih
    | parametric method binder body =>
      rw [methodNodes, bodies, List.flatMap_cons, ih]

theorem nodes_eq (e : Expr) : e.nodes = e :: e.children.flatMap nodes := by
  obtain ⟨id, form⟩ := e
  cases form with
  | path head properties methods => simp only [nodes, formNodes, children, methodNodes_eq]
  | _ => simp [nodes, formNodes, children]

mutual

/-- A property that passes from the direct parts of an expression to the whole holds of all. -/
theorem induction_on_children {P : Expr → Prop} (h : ∀ e, (∀ c ∈ e.children, P c) → P e) :
    ∀ e, P e
  | ⟨_, .binary _ left right⟩ => h _ (by
    simpa [children] using ⟨induction_on_children h left, induction_on_children h right⟩)
  | ⟨_, .lone _ operand⟩ | ⟨_, .negation operand⟩ | ⟨_, .signed _ operand⟩
  | ⟨_, .parenthesized operand⟩ => h _ (by
    simpa [children] using induction_on_children h operand)
  | ⟨_, .ternary condition thenValue elseValue⟩ => h _ (by
    simpa [children] using ⟨induction_on_children h condition, induction_on_children h thenValue,
      induction_on_children h elseValue⟩)
  | ⟨_, .path _ _ methods⟩ => h _ (induction_on_bodies h methods)
  | ⟨_, .final _⟩ | ⟨_, .number _⟩ | ⟨_, .string _⟩ | ⟨_, .bool _⟩ | ⟨_, .null⟩ | ⟨_, .now⟩ =>
    h _ (by simp [children])

theorem induction_on_bodies {P : Expr → Prop} (h : ∀ e, (∀ c ∈ e.children, P c) → P e) :
    ∀ methods, ∀ c ∈ bodies methods, P c
  | [] => by simp [bodies]
  | .simple _ :: methods => induction_on_bodies h methods
  | .parametric _ _ body :: methods => by
    rw [bodies, List.forall_mem_cons]
    exact ⟨induction_on_children h body, induction_on_bodies h methods⟩

end

/-- The nodes of a part are nodes of the whole. -/
theorem mem_nodes_of_child {e c n : Expr} (hc : c ∈ e.children) (hn : n ∈ c.nodes) :
    n ∈ e.nodes := by
  rw [nodes_eq e]
  exact List.mem_cons_of_mem _ (List.mem_flatMap.mpr ⟨c, hc, hn⟩)

theorem mem_nodes_self (e : Expr) : e ∈ e.nodes := by
  rw [nodes_eq]
  exact List.mem_cons_self

end Expr

/-! ### Models -/

def Invariant.nodes (i : Invariant) : List Expr := i.expression.nodes

def Aggregate.nodes (a : Aggregate) : List Expr := a.invariants.flatMap Invariant.nodes

def AntiCorruption.nodes (a : AntiCorruption) : List Expr := a.invariants.flatMap Invariant.nodes

def ConstructorAssignment.nodes (a : ConstructorAssignment) : List Expr := a.expression.nodes

def Constructor.nodes (c : Constructor) : List Expr :=
  c.assignments.flatMap ConstructorAssignment.nodes

def Command.nodes : Command → List Expr
  | assignment _ right => right.nodes
  | other _ => []

def Operation.nodes (o : Operation) : List Expr := o.commands.flatMap Command.nodes

def DomainObject.nodes (o : DomainObject) : List Expr :=
  (o.constructor.map Constructor.nodes).getD [] ++ o.operations.flatMap Operation.nodes

/-- **The nodes of all expressions of a model,** in the order in which they are numbered. -/
def Model.exprNodes (m : Model) : List Expr :=
  m.aggregates.flatMap Aggregate.nodes ++ m.antiCorruptions.flatMap AntiCorruption.nodes ++
    m.objects.flatMap DomainObject.nodes

/-! ### Bodies

The assignments of a body are the expressions of its constructor or operation. -/

theorem Constructor.nodes_assigned (c : Constructor) :
    c.assigned.flatMap (·.expression.nodes) = c.nodes := by
  calc
    _ = c.assignments.zipIdx.flatMap fun p => p.1.nodes := by
      rw [assigned, List.flatMap_map]
      rfl
    _ = (c.assignments.zipIdx.map Prod.fst).flatMap ConstructorAssignment.nodes :=
      (List.flatMap_map ..).symm
    _ = c.nodes := by
      rw [List.zipIdx_map_fst]
      rfl

theorem Operation.nodes_assigned (o : Operation) :
    o.assigned.flatMap (·.expression.nodes) = o.nodes := by
  unfold assigned nodes
  generalize 0 = next
  induction o.commands generalizing next with
  | nil => rfl
  | cons command rest ih =>
    rw [List.zipIdx_cons, List.flatMap_cons, ← ih (next + 1)]
    cases command with
    | assignment left right => rfl
    | other text => rfl

/-! ### Numbers -/

/-- `n` consecutive numbers. -/
def idsFrom (next n : Nat) : List ExprId := (List.range' next n).map Handle.ofIndex

theorem idsFrom_append (next n k : Nat) :
    idsFrom next n ++ idsFrom (next + n) k = idsFrom next (n + k) := by
  unfold idsFrom
  rw [← List.map_append, List.range'_append_1]

theorem idsFrom_succ (next n : Nat) :
    Handle.ofIndex next :: idsFrom (next + 1) n = idsFrom next (1 + n) := by
  rw [Nat.add_comm 1 n]
  rfl

/-- A way to number the expressions in a value gives their nodes consecutive numbers. -/
def NumbersNodes {α : Type} (count : α → Nat) (numbered : Nat → α → α) (nodes : α → List Expr) :
    Prop :=
  ∀ next a, (nodes (numbered next a)).map Expr.id = idsFrom next (count a)

theorem NumbersNodes.list {α : Type} {count : α → Nat} {numbered : Nat → α → α}
    {nodes : α → List Expr} (h : NumbersNodes count numbered nodes) :
    NumbersNodes (countList count) (numberedList count numbered) (·.flatMap nodes) := by
  intro next as
  induction as generalizing next with
  | nil => rfl
  | cons a as ih =>
    have hrest := ih (next + count a)
    simp only [numberedList, List.flatMap_cons, List.map_append, countList, List.foldr_cons]
      at hrest ⊢
    rw [h, hrest, idsFrom_append]

namespace Expr

mutual

/-- **The nodes of a numbered expression have consecutive numbers.** -/
theorem ids_numbered (next : Nat) : ∀ e : Expr,
    (e.numbered next).nodes.map id = idsFrom next e.count
  | ⟨_, .binary _ left right⟩ => by
    simp only [numbered, nodes, formNodes, count, List.map_cons, List.map_append, id,
      ids_numbered _ left, ids_numbered _ right, idsFrom_append, idsFrom_succ]
    rw [Nat.add_assoc]
  | ⟨_, .lone _ operand⟩ | ⟨_, .negation operand⟩ | ⟨_, .signed _ operand⟩
  | ⟨_, .parenthesized operand⟩ => by
    simp only [numbered, nodes, formNodes, count, List.map_cons, id, ids_numbered _ operand,
      idsFrom_succ]
  | ⟨_, .ternary condition thenValue elseValue⟩ => by
    simp only [numbered, nodes, formNodes, count, List.map_cons, List.map_append, id,
      ids_numbered _ condition, ids_numbered _ thenValue, ids_numbered _ elseValue,
      idsFrom_append, idsFrom_succ]
    rw [Nat.add_assoc, Nat.add_assoc]
  | ⟨_, .path _ _ methods⟩ => by
    simp only [numbered, nodes, formNodes, count, List.map_cons, id, ids_numberedMethods _ methods,
      idsFrom_succ]
  | ⟨_, .final _⟩ | ⟨_, .number _⟩ | ⟨_, .string _⟩ | ⟨_, .bool _⟩ | ⟨_, .null⟩ | ⟨_, .now⟩ => by
    simp only [numbered, nodes, formNodes, count, List.map_cons, List.map_nil, id]
    rfl

theorem ids_numberedMethods (next : Nat) : ∀ methods,
    (methodNodes (numberedMethods next methods)).map id = idsFrom next (countMethods methods)
  | [] => rfl
  | .simple _ :: methods => by
    simp only [numberedMethods, methodNodes, countMethods, ids_numberedMethods _ methods]
  | .parametric _ _ body :: methods => by
    simp only [numberedMethods, methodNodes, countMethods, List.map_append, ids_numbered _ body,
      ids_numberedMethods _ methods, idsFrom_append]

end

end Expr

theorem Invariant.numbersNodes : NumbersNodes Invariant.count Invariant.numbered Invariant.nodes :=
  fun next i => Expr.ids_numbered next i.expression

theorem Aggregate.numbersNodes : NumbersNodes Aggregate.count Aggregate.numbered Aggregate.nodes :=
  fun next a => Invariant.numbersNodes.list next a.invariants

theorem AntiCorruption.numbersNodes :
    NumbersNodes AntiCorruption.count AntiCorruption.numbered AntiCorruption.nodes :=
  fun next a => Invariant.numbersNodes.list next a.invariants

theorem ConstructorAssignment.numbersNodes : NumbersNodes ConstructorAssignment.count
    ConstructorAssignment.numbered ConstructorAssignment.nodes :=
  fun next a => Expr.ids_numbered next a.expression

theorem Constructor.numbersNodes :
    NumbersNodes Constructor.count Constructor.numbered Constructor.nodes :=
  fun next c => ConstructorAssignment.numbersNodes.list next c.assignments

theorem Command.numbersNodes : NumbersNodes Command.count Command.numbered Command.nodes := by
  intro next c
  cases c with
  | assignment left right => exact Expr.ids_numbered next right
  | other text => rfl

theorem Operation.numbersNodes : NumbersNodes Operation.count Operation.numbered Operation.nodes :=
  fun next o => Command.numbersNodes.list next o.commands

theorem DomainObject.numbersNodes :
    NumbersNodes DomainObject.count DomainObject.numbered DomainObject.nodes := by
  intro next o
  have hoperations := Operation.numbersNodes.list (next + o.constructorCount) o.operations
  have hconstructor : (((o.constructor.map (Constructor.numbered next)).map
      Constructor.nodes).getD []).map Expr.id = idsFrom next o.constructorCount := by
    unfold constructorCount
    cases o.constructor with
    | none => rfl
    | some c => exact Constructor.numbersNodes next c
  unfold nodes numbered count
  rw [List.map_append, hconstructor, hoperations, idsFrom_append]

/-- **The expression nodes of a numbered model have the numbers from 0 on.** -/
theorem Model.ids_exprNodes (m : Model) :
    m.numbered.exprNodes.map Expr.id = idsFrom 0 m.count := by
  have haggregates := Aggregate.numbersNodes.list 0 m.aggregates
  have hantiCorruptions := fun next => AntiCorruption.numbersNodes.list next m.antiCorruptions
  have hobjects := fun next => DomainObject.numbersNodes.list next m.objects
  unfold exprNodes numbered count
  simp only [List.map_append]
  rw [haggregates, hantiCorruptions, hobjects]
  rw [← idsFrom_append, ← idsFrom_append, Nat.zero_add, Nat.zero_add]

end DomainModel
