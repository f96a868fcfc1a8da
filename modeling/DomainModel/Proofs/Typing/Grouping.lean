import DomainModel.Proofs.Nodes
import DomainModel.Typing.Infer

/-! # Grouping

Parentheses and operators without right operand hold an expression together and do nothing else.
`e.ungrouped` is `e` with every such node, at any depth and inside lambdas, replaced by its part. What
is left are the other nodes with their numbers, in the same order (`nodes_ungrouped`). No rule of the
inference looks at the form of an operand, only at its type, so `e.ungrouped` is inferred as `e` is:
`Model.inferType_ungrouped`. -/

namespace DomainModel

namespace Expr

/-- The node only groups its part. -/
def isGroup : Expr → Bool
  | ⟨_, .lone _ _⟩ | ⟨_, .parenthesized _⟩ => true
  | _ => false

mutual

/-- **The expression without groups.** All other nodes keep their numbers. -/
def ungrouped : Expr → Expr
  | ⟨_, .lone _ operand⟩ => operand.ungrouped
  | ⟨_, .parenthesized inner⟩ => inner.ungrouped
  | ⟨id, .binary op left right⟩ => ⟨id, .binary op left.ungrouped right.ungrouped⟩
  | ⟨id, .negation operand⟩ => ⟨id, .negation operand.ungrouped⟩
  | ⟨id, .signed op operand⟩ => ⟨id, .signed op operand.ungrouped⟩
  | ⟨id, .ternary condition thenValue elseValue⟩ =>
    ⟨id, .ternary condition.ungrouped thenValue.ungrouped elseValue.ungrouped⟩
  | ⟨id, .path head properties methods⟩ => ⟨id, .path head properties (ungroupedMethods methods)⟩
  | ⟨id, .final chains⟩ => ⟨id, .final chains⟩
  | ⟨id, .number literal⟩ => ⟨id, .number literal⟩
  | ⟨id, .string value⟩ => ⟨id, .string value⟩
  | ⟨id, .bool value⟩ => ⟨id, .bool value⟩
  | ⟨id, .null⟩ => ⟨id, .null⟩
  | ⟨id, .now⟩ => ⟨id, .now⟩

/-- A chain of methods with lambda bodies without groups. -/
def ungroupedMethods : List Method → List Method
  | [] => []
  | .simple method :: methods => .simple method :: ungroupedMethods methods
  | .parametric method binder body :: methods =>
    .parametric method binder body.ungrouped :: ungroupedMethods methods

end

/-- The nodes that do more than group. -/
def plainNodes (nodes : List Expr) : List Expr := nodes.filter (!·.isGroup)

@[simp] theorem plainNodes_append (ns ks : List Expr) :
    plainNodes (ns ++ ks) = plainNodes ns ++ plainNodes ks := List.filter_append ..

theorem plainNodes_cons_group {e : Expr} (h : e.isGroup = true) (ns : List Expr) :
    plainNodes (e :: ns) = plainNodes ns := by
  rw [plainNodes, List.filter_cons, h]
  rfl

theorem plainNodes_cons {e : Expr} (h : e.isGroup = false) (ns : List Expr) :
    plainNodes (e :: ns) = e :: plainNodes ns := by
  rw [plainNodes, List.filter_cons, h]
  rfl

mutual

/-- **What is left without groups** are the nodes that do more than group. -/
theorem nodes_ungrouped : ∀ e : Expr, e.ungrouped.nodes = (plainNodes e.nodes).map ungrouped
  | ⟨id, .lone op operand⟩ => by
    rw [ungrouped, nodes_ungrouped operand, nodes, plainNodes_cons_group rfl, formNodes]
  | ⟨id, .parenthesized inner⟩ => by
    rw [ungrouped, nodes_ungrouped inner, nodes, plainNodes_cons_group rfl, formNodes]
  | ⟨id, .binary op left right⟩ => by
    rw [ungrouped, nodes, nodes, plainNodes_cons rfl, List.map_cons, ungrouped, formNodes, formNodes,
      plainNodes_append, List.map_append, nodes_ungrouped left, nodes_ungrouped right]
  | ⟨id, .negation operand⟩ | ⟨id, .signed op operand⟩ => by
    rw [ungrouped, nodes, nodes, plainNodes_cons rfl, List.map_cons, ungrouped, formNodes, formNodes,
      nodes_ungrouped operand]
  | ⟨id, .ternary condition thenValue elseValue⟩ => by
    rw [ungrouped, nodes, nodes, plainNodes_cons rfl, List.map_cons, ungrouped, formNodes, formNodes,
      plainNodes_append, plainNodes_append, List.map_append, List.map_append,
      nodes_ungrouped condition, nodes_ungrouped thenValue, nodes_ungrouped elseValue]
  | ⟨id, .path head properties methods⟩ => by
    rw [ungrouped, nodes, nodes, plainNodes_cons rfl, List.map_cons, ungrouped, formNodes, formNodes,
      methodNodes_ungrouped methods]
  | ⟨id, .final chains⟩ | ⟨id, .number literal⟩ | ⟨id, .string value⟩ | ⟨id, .bool value⟩
  | ⟨id, .null⟩ | ⟨id, .now⟩ => by
    rw [ungrouped, nodes, plainNodes_cons rfl, List.map_cons, ungrouped, formNodes]
    rfl

theorem methodNodes_ungrouped : ∀ methods,
    methodNodes (ungroupedMethods methods) = (plainNodes (methodNodes methods)).map ungrouped
  | [] => rfl
  | .simple method :: methods => by
    rw [ungroupedMethods, methodNodes, methodNodes, methodNodes_ungrouped methods]
  | .parametric method binder body :: methods => by
    rw [ungroupedMethods, methodNodes, methodNodes, plainNodes_append, List.map_append,
      nodes_ungrouped body, methodNodes_ungrouped methods]

end

theorem id_ungrouped {e : Expr} (h : e.isGroup = false) : e.ungrouped.id = e.id := by
  obtain ⟨id, form⟩ := e
  cases form with
  | lone | parenthesized => cases h
  | final | number | string | bool | null | now => rw [ungrouped]
  | _ => rw [ungrouped]; rfl

theorem isGroup_ungrouped : ∀ e : Expr, e.ungrouped.isGroup = false
  | ⟨_, .lone _ operand⟩ => by rw [ungrouped]; exact isGroup_ungrouped operand
  | ⟨_, .parenthesized inner⟩ => by rw [ungrouped]; exact isGroup_ungrouped inner
  | ⟨_, .binary _ _ _⟩ | ⟨_, .negation _⟩ | ⟨_, .signed _ _⟩ | ⟨_, .ternary _ _ _⟩
  | ⟨_, .path _ _ _⟩ | ⟨_, .final _⟩ | ⟨_, .number _⟩ | ⟨_, .string _⟩ | ⟨_, .bool _⟩
  | ⟨_, .null⟩ | ⟨_, .now⟩ => by rw [ungrouped]; rfl

end Expr

namespace Env

variable (env : Env)

mutual

/-- Groups are inferred as their parts are, so an expression is inferred as it is without them. -/
theorem infer_ungrouped : ∀ (e : Expr) (scope : Scope) (kind : ScopeKind),
    env.infer scope kind e.ungrouped = env.infer scope kind e
  | ⟨id, .lone op operand⟩, scope, kind => by
    rw [Expr.ungrouped, infer, infer_ungrouped operand]
  | ⟨id, .parenthesized inner⟩, scope, kind => by
    rw [Expr.ungrouped, infer, infer_ungrouped inner]
  | ⟨id, .binary op left right⟩, scope, kind => by
    rw [Expr.ungrouped, infer, infer, infer_ungrouped left, infer_ungrouped right]
  | ⟨id, .negation operand⟩, scope, kind => by
    rw [Expr.ungrouped, infer, infer, infer_ungrouped operand]
  | ⟨id, .signed op operand⟩, scope, kind => by
    rw [Expr.ungrouped, infer, infer, infer_ungrouped operand]
  | ⟨id, .ternary condition thenValue elseValue⟩, scope, kind => by
    rw [Expr.ungrouped, infer, infer, infer_ungrouped condition, infer_ungrouped thenValue,
      infer_ungrouped elseValue]
  | ⟨id, .path head properties methods⟩, scope, kind => by
    rw [Expr.ungrouped, infer, infer]
    simp only [applyMethods_ungrouped methods]
  | ⟨id, .final chains⟩, scope, kind | ⟨id, .number literal⟩, scope, kind
  | ⟨id, .string value⟩, scope, kind | ⟨id, .bool value⟩, scope, kind
  | ⟨id, .null⟩, scope, kind | ⟨id, .now⟩, scope, kind => by
    rw [Expr.ungrouped]

/-- The bodies of lambdas are inferred in scopes of their own. -/
theorem applyMethods_ungrouped : ∀ (methods : List Method) (id : ExprId) (scope : Scope)
    (index : Nat) (type : Ty),
    env.applyMethods id scope index type (Expr.ungroupedMethods methods) =
      env.applyMethods id scope index type methods
  | [], id, scope, index, type => by rw [Expr.ungroupedMethods]
  | .simple method :: methods, id, scope, index, type => by
    rw [Expr.ungroupedMethods, applyMethods, applyMethods]
    simp only [applyMethods_ungrouped methods]
  | .parametric method binder body :: methods, id, scope, index, type => by
    rw [Expr.ungroupedMethods, applyMethods, applyMethods]
    simp only [infer_ungrouped body, applyMethods_ungrouped methods]

end

end Env

namespace Model

/-- **Grouping is transparent.** Without its groups an expression has the same type and the same
diagnostics in the same order, in every environment. What is left of it are the other nodes: none of
them is a group, and they have the numbers that they had. -/
theorem inferType_ungrouped (m : Model) (aggregate : Option AggregateId) (policy : TernaryPolicy)
    (scope : Scope) (kind : ScopeKind) (e : Expr) :
    m.inferType aggregate policy scope kind e.ungrouped =
        m.inferType aggregate policy scope kind e ∧
      (∀ n ∈ e.ungrouped.nodes, n.isGroup = false) ∧
      e.ungrouped.nodes.map Expr.id = (e.nodes.filter (!·.isGroup)).map Expr.id := by
  refine ⟨?_, ?_, ?_⟩
  · unfold inferType
    simp only [Env.infer_ungrouped]
  · intro n hn
    rw [Expr.nodes_ungrouped] at hn
    obtain ⟨k, -, rfl⟩ := List.mem_map.mp hn
    exact Expr.isGroup_ungrouped k
  · rw [Expr.nodes_ungrouped, List.map_map]
    refine List.map_congr_left fun n hn => ?_
    have hplain := (List.mem_filter.mp hn).2
    exact Expr.id_ungrouped (by simpa using hplain)

end Model

end DomainModel
