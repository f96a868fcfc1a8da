import Mathlib.Data.List.Lex
import DomainModel.Proofs.Nodes

/-! # Addresses of expression nodes

An address leads down from a model to one of its expression nodes: into a section of the model, to
an owner in it, to one of the owner's expressions, and then from part to part. Addresses are
compared lexicographically. So a node comes before its parts, the parts come in their order, and of
two sections, owners or expressions all nodes of the first come before those of the second: this is
the order in which a model is numbered.

`Enumerates nodes at?` says that the list `nodes` goes through all addresses at which `at?` finds a
node, once each and in this order. There is one rule for a node over its parts (`Enumerates.root`)
and one for places side by side (`Enumerates.fork`); the main statement puts them together
(`Model.enumerates_exprNodes`). -/

namespace DomainModel

/-- The way to an expression node. -/
abbrev Address := List Nat

namespace Address

/-- Zero leads into the first place; other numbers, less by one, lead on in the second. -/
def fork (first second : Address → Option Expr) : Address → Option Expr
  | [] => none
  | 0 :: p => first p
  | (i + 1) :: p => second (i :: p)

/-- The first number of an address is the position of an item. -/
def inside {α : Type} (at? : α → Address → Option Expr) (as : List α) : Address → Option Expr
  | [] => none
  | i :: p => as[i]?.bind (at? · p)

variable {α : Type} {at? : α → Address → Option Expr}

theorem inside_nil : inside at? [] = fun _ => none := by
  funext p
  cases p <;> rfl

theorem inside_cons (a : α) (as : List α) :
    inside at? (a :: as) = fork (at? a) (inside at? as) := by
  funext p
  rcases p with _ | ⟨_ | i, p⟩ <;> rfl

/-- The address in the second of two places that leads as `p` does there. -/
def bump : Address → Address
  | [] => []
  | i :: p => (i + 1) :: p

theorem bump_lt_bump {p q : Address} (h : p < q) : bump p < bump q := by
  rcases p with _ | ⟨i, p⟩ <;> rcases q with _ | ⟨j, q⟩
  · exact h
  · exact List.nil_lt_cons _ _
  · cases h
  · unfold bump
    rw [List.cons_lt_cons_iff] at h ⊢
    rcases h with h | ⟨rfl, h⟩
    · exact Or.inl (Nat.succ_lt_succ h)
    · exact Or.inr ⟨rfl, h⟩

theorem zero_cons_lt_bump (p : Address) {q : Address} (hq : q ≠ []) : 0 :: p < bump q := by
  obtain ⟨j, q, rfl⟩ := List.exists_cons_of_ne_nil hq
  unfold bump
  rw [List.cons_lt_cons_iff]
  exact Or.inl (Nat.succ_pos j)

theorem fork_bump {first second : Address → Option Expr} {p : Address} (hp : p ≠ []) :
    fork first second (bump p) = second p := by
  obtain ⟨i, p, rfl⟩ := List.exists_cons_of_ne_nil hp
  rfl

end Address

open Address

/-- **The nodes at all addresses,** each of them once, in the order of the addresses. -/
def Enumerates (nodes : List Expr) (at? : Address → Option Expr) : Prop :=
  ∃ places : List Address, places.Pairwise (· < ·) ∧ places.map at? = nodes.map some ∧
    ∀ p, (at? p).isSome = true → p ∈ places

namespace Enumerates

variable {nodes more : List Expr} {at? first second : Address → Option Expr}

theorem none : Enumerates [] fun _ => none := ⟨[], .nil, rfl, by simp⟩

theorem isSome_of_mem {places : List Address} (h : places.map at? = nodes.map some) {p : Address}
    (hp : p ∈ places) : (at? p).isSome = true := by
  have hmem : at? p ∈ nodes.map some := h ▸ List.mem_map_of_mem hp
  obtain ⟨e, -, he⟩ := List.mem_map.mp hmem
  rw [← he]
  rfl

theorem ne_nil_of_mem {places : List Address} (h : places.map at? = nodes.map some)
    (hnil : at? [] = .none) {p : Address} (hp : p ∈ places) : p ≠ [] := by
  rintro rfl
  have hsome := isSome_of_mem h hp
  rw [hnil] at hsome
  cases hsome

/-- Of what stands at the same addresses there is the same number. -/
theorem length_eq (h : Enumerates nodes first) (h' : Enumerates more second)
    (hsame : ∀ p, (first p).isSome = (second p).isSome) : nodes.length = more.length := by
  obtain ⟨places, hsorted, hnodes, hall⟩ := h
  obtain ⟨places', hsorted', hnodes', hall'⟩ := h'
  have hperm : places.Perm places' := by
    refine (List.perm_ext_iff_of_nodup ?_ ?_).mpr fun p => ?_
    · exact hsorted.imp fun hlt => ne_of_lt hlt
    · exact hsorted'.imp fun hlt => ne_of_lt hlt
    · constructor
      · exact fun hp => hall' p (hsame p ▸ isSome_of_mem hnodes hp)
      · exact fun hp => hall p (hsame p ▸ isSome_of_mem hnodes' hp)
  calc
    nodes.length = (places.map first).length := by rw [hnodes, List.length_map]
    _ = (places'.map second).length := by rw [List.length_map, List.length_map, hperm.length_eq]
    _ = more.length := by rw [hnodes', List.length_map]

/-- A node comes before its parts. -/
theorem root (h : Enumerates nodes at?) (hnil : at? [] = .none) (e : Expr) :
    Enumerates (e :: nodes) fun p => if p = [] then some e else at? p := by
  obtain ⟨places, hsorted, hnodes, hall⟩ := h
  have hne : ∀ p ∈ places, p ≠ [] := fun p => ne_nil_of_mem hnodes hnil
  refine ⟨[] :: places, List.pairwise_cons.mpr ⟨fun p hp => ?_, hsorted⟩, ?_, fun p hp => ?_⟩
  · obtain ⟨i, p, rfl⟩ := List.exists_cons_of_ne_nil (hne p hp)
    exact List.nil_lt_cons i p
  · rw [List.map_cons, List.map_cons, if_pos rfl, ← hnodes]
    congr 1
    exact List.map_congr_left fun p hp => if_neg (hne p hp)
  · by_cases hp' : p = []
    · simp [hp']
    · simp only [hp', if_false] at hp
      exact List.mem_cons_of_mem _ (hall p hp)

/-- All nodes of the first of two places come before those of the second. -/
theorem fork (h : Enumerates nodes first) (h' : Enumerates more second)
    (hnil : second [] = .none) : Enumerates (nodes ++ more) (fork first second) := by
  obtain ⟨places, hsorted, hnodes, hall⟩ := h
  obtain ⟨places', hsorted', hnodes', hall'⟩ := h'
  have hne : ∀ p ∈ places', p ≠ [] := fun p => ne_nil_of_mem hnodes' hnil
  refine ⟨places.map (0 :: ·) ++ places'.map bump, ?_, ?_, ?_⟩
  · rw [List.pairwise_append, List.pairwise_map, List.pairwise_map]
    refine ⟨hsorted.imp fun h => ?_, hsorted'.imp bump_lt_bump, ?_⟩
    · exact List.cons_lt_cons_iff.mpr (Or.inr ⟨rfl, h⟩)
    · intro p hp q hq
      obtain ⟨p', -, rfl⟩ := List.mem_map.mp hp
      obtain ⟨q', hq', rfl⟩ := List.mem_map.mp hq
      exact zero_cons_lt_bump p' (hne q' hq')
  · rw [List.map_append, List.map_append, List.map_map, List.map_map, ← hnodes, ← hnodes']
    congr 1
    exact List.map_congr_left fun p hp => fork_bump (hne p hp)
  · rintro (_ | ⟨_ | i, p⟩) hp
    · cases hp
    · exact List.mem_append_left _ (List.mem_map_of_mem (hall p hp))
    · exact List.mem_append_right _ (List.mem_map.mpr ⟨i :: p, hall' _ hp, rfl⟩)

/-- The nodes of the items of a list, item by item. -/
theorem inside {α : Type} {nodes : α → List Expr} {at? : α → Address → Option Expr} {as : List α}
    (h : ∀ a ∈ as, Enumerates (nodes a) (at? a)) :
    Enumerates (as.flatMap nodes) (inside at? as) := by
  induction as with
  | nil =>
    rw [inside_nil]
    exact .none
  | cons a as ih =>
    rw [inside_cons, List.flatMap_cons]
    exact (h a List.mem_cons_self).fork (ih fun b hb => h b (List.mem_cons_of_mem _ hb)) rfl

end Enumerates

/-! ### Expressions -/

/-- The node of an expression at an address. -/
def Expr.at? (e : Expr) : Address → Option Expr
  | [] => some e
  | i :: p => e.children[i]?.bind (Expr.at? · p)

theorem Expr.enumerates_nodes (e : Expr) : Enumerates e.nodes e.at? := by
  induction e using Expr.induction_on_children with
  | h e ih =>
    have hparts : e.at? = fun p => if p = [] then some e else inside Expr.at? e.children p := by
      funext p
      cases p <;> rfl
    rw [Expr.nodes_eq, hparts]
    exact (Enumerates.inside ih).root rfl e

/-! ### Models -/

def Invariant.exprAt? (i : Invariant) : Address → Option Expr := i.expression.at?

def Aggregate.exprAt? (a : Aggregate) : Address → Option Expr :=
  inside Invariant.exprAt? a.invariants

def AntiCorruption.exprAt? (a : AntiCorruption) : Address → Option Expr :=
  inside Invariant.exprAt? a.invariants

def ConstructorAssignment.exprAt? (a : ConstructorAssignment) : Address → Option Expr :=
  a.expression.at?

def Constructor.exprAt? (c : Constructor) : Address → Option Expr :=
  inside ConstructorAssignment.exprAt? c.assignments

def Command.exprAt? : Command → Address → Option Expr
  | assignment _ right => right.at?
  | other _ => fun _ => none

def Operation.exprAt? (o : Operation) : Address → Option Expr :=
  inside Command.exprAt? o.commands

/-- The node of an object at an address: 0 leads to its constructor, 1 to its operations. -/
def DomainObject.exprAt? (o : DomainObject) : Address → Option Expr
  | 0 :: p => o.constructor.bind (·.exprAt? p)
  | 1 :: p => inside Operation.exprAt? o.operations p
  | _ => none

/-- **The expression node of a model at an address:** 0 leads to the aggregates, 1 to the
anti-corruption declarations, 2 to the objects. -/
def Model.exprAt? (m : Model) : Address → Option Expr
  | 0 :: p => inside Aggregate.exprAt? m.aggregates p
  | 1 :: p => inside AntiCorruption.exprAt? m.antiCorruptions p
  | 2 :: p => inside DomainObject.exprAt? m.objects p
  | _ => none

theorem Invariant.enumerates_nodes (i : Invariant) : Enumerates i.nodes i.exprAt? :=
  i.expression.enumerates_nodes

theorem Aggregate.enumerates_nodes (a : Aggregate) : Enumerates a.nodes a.exprAt? :=
  .inside fun i _ => i.enumerates_nodes

theorem AntiCorruption.enumerates_nodes (a : AntiCorruption) : Enumerates a.nodes a.exprAt? :=
  .inside fun i _ => i.enumerates_nodes

theorem Constructor.enumerates_nodes (c : Constructor) : Enumerates c.nodes c.exprAt? :=
  .inside fun a _ => a.expression.enumerates_nodes

theorem Command.enumerates_nodes (c : Command) : Enumerates c.nodes c.exprAt? := by
  cases c with
  | assignment left right => exact right.enumerates_nodes
  | other text => exact .none

theorem Operation.enumerates_nodes (o : Operation) : Enumerates o.nodes o.exprAt? :=
  .inside fun c _ => c.enumerates_nodes

theorem DomainObject.enumerates_nodes (o : DomainObject) : Enumerates o.nodes o.exprAt? := by
  have hconstructor : Enumerates ((o.constructor.map Constructor.nodes).getD [])
      fun p => o.constructor.bind (·.exprAt? p) := by
    cases o.constructor with
    | none => exact .none
    | some c => exact c.enumerates_nodes
  have hoperations : Enumerates (o.operations.flatMap Operation.nodes)
      (inside Operation.exprAt? o.operations) := .inside fun k _ => k.enumerates_nodes
  have hparts : o.exprAt? = fork (fun p => o.constructor.bind (·.exprAt? p))
      (fork (inside Operation.exprAt? o.operations) fun _ => none) := by
    funext p
    rcases p with _ | ⟨_ | _ | i, p⟩ <;> rfl
  rw [hparts, nodes]
  have hrest := hoperations.fork .none rfl
  rw [List.append_nil] at hrest
  exact hconstructor.fork hrest rfl

/-- **The list of a model's expression nodes goes through their addresses.** -/
theorem Model.enumerates_exprNodes (m : Model) : Enumerates m.exprNodes m.exprAt? := by
  have haggregates : Enumerates (m.aggregates.flatMap Aggregate.nodes)
      (inside Aggregate.exprAt? m.aggregates) := .inside fun a _ => a.enumerates_nodes
  have hantiCorruptions : Enumerates (m.antiCorruptions.flatMap AntiCorruption.nodes)
      (inside AntiCorruption.exprAt? m.antiCorruptions) := .inside fun a _ => a.enumerates_nodes
  have hobjects : Enumerates (m.objects.flatMap DomainObject.nodes)
      (inside DomainObject.exprAt? m.objects) := .inside fun o _ => o.enumerates_nodes
  have hparts : m.exprAt? = fork (inside Aggregate.exprAt? m.aggregates)
      (fork (inside AntiCorruption.exprAt? m.antiCorruptions)
        (fork (inside DomainObject.exprAt? m.objects) fun _ => none)) := by
    funext p
    rcases p with _ | ⟨_ | _ | _ | i, p⟩ <;> rfl
  rw [hparts, exprNodes, List.append_assoc]
  have hlast := hobjects.fork .none rfl
  rw [List.append_nil] at hlast
  exact haggregates.fork (hantiCorruptions.fork hlast rfl) rfl

end DomainModel
