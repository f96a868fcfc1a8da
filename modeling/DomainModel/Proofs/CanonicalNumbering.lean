import DomainModel.Proofs.Addresses
import DomainModel.Proofs.Loading
import DomainModel.Proofs.Typing.Names

/-! # The numbering is canonical

The numbers of a numbered model are determined by the model without its numbers, `m.bare`. Read at
the addresses of the expression nodes, in their order, they are 0, 1, 2 and so on; all else is as it
was; and whatever numbers the nodes had before makes no difference.

A value, part of a model, may be numbered from some number on, and its numbers may be replaced by a
map. `Forgets` collects what the one does to the other; it passes to lists, and so from expressions
up to models. -/

namespace DomainModel

open Address

/-- Numbering forgets the numbers that were there, and replaces nothing else. -/
structure Forgets {α : Type} (count : α → Nat) (numbered : Nat → α → α)
    (renumbered : (ExprId → ExprId) → α → α) (at? : α → Address → Option Expr) : Prop where
  count_renumbered : ∀ f a, count (renumbered f a) = count a
  numbered_renumbered : ∀ f next a, numbered next (renumbered f a) = numbered next a
  /-- If all numbers are made equal, it does not show that the value was numbered before. -/
  renumbered_numbered : ∀ k next a,
    renumbered (fun _ => k) (numbered next a) = renumbered (fun _ => k) a
  at?_renumbered : ∀ f a p, at? (renumbered f a) p = (at? a p).map (Expr.renumbered f)

namespace Forgets

variable {α : Type} {count : α → Nat} {numbered : Nat → α → α}
  {renumbered : (ExprId → ExprId) → α → α} {at? : α → Address → Option Expr}

theorem list (h : Forgets count numbered renumbered at?) :
    Forgets (countList count) (numberedList count numbered) (fun f as => as.map (renumbered f))
      (inside at?) where
  count_renumbered f as := by
    induction as with
    | nil => rfl
    | cons a as ih =>
      simp only [countList, List.map_cons, List.foldr_cons, h.count_renumbered] at ih ⊢
      rw [ih]
  numbered_renumbered f next as := by
    induction as generalizing next with
    | nil => rfl
    | cons a as ih =>
      rw [List.map_cons, numberedList, numberedList, h.count_renumbered, h.numbered_renumbered, ih]
  renumbered_numbered k next as := by
    induction as generalizing next with
    | nil => rfl
    | cons a as ih =>
      rw [numberedList, List.map_cons, List.map_cons, h.renumbered_numbered, ih]
  at?_renumbered f as p := by
    cases p with
    | nil => rfl
    | cons i p =>
      rw [inside, inside, List.getElem?_map]
      cases as[i]? with
      | none => rfl
      | some a => exact h.at?_renumbered f a p

end Forgets

/-! ### Expressions -/

namespace Expr

mutual

theorem count_renumbered (f : ExprId → ExprId) : ∀ e : Expr, (e.renumbered f).count = e.count
  | ⟨_, .binary _ left right⟩ => by
    simp only [renumbered, Form.renumbered, count, count_renumbered f left,
      count_renumbered f right]
  | ⟨_, .lone _ operand⟩ | ⟨_, .negation operand⟩ | ⟨_, .signed _ operand⟩
  | ⟨_, .parenthesized operand⟩ => by
    simp only [renumbered, Form.renumbered, count, count_renumbered f operand]
  | ⟨_, .ternary condition thenValue elseValue⟩ => by
    simp only [renumbered, Form.renumbered, count, count_renumbered f condition,
      count_renumbered f thenValue, count_renumbered f elseValue]
  | ⟨_, .path _ _ methods⟩ => by
    simp only [renumbered, Form.renumbered, count, countMethods_renumbered f methods]
  | ⟨_, .final _⟩ | ⟨_, .number _⟩ | ⟨_, .string _⟩ | ⟨_, .bool _⟩ | ⟨_, .null⟩ | ⟨_, .now⟩ => by
    simp only [renumbered, Form.renumbered, count]

theorem countMethods_renumbered (f : ExprId → ExprId) :
    ∀ methods, countMethods (renumberedMethods f methods) = countMethods methods
  | [] => by rw [renumberedMethods]
  | .simple _ :: methods => by
    simp only [renumberedMethods, countMethods, countMethods_renumbered f methods]
  | .parametric _ _ body :: methods => by
    simp only [renumberedMethods, countMethods, count_renumbered f body,
      countMethods_renumbered f methods]

end

mutual

theorem numbered_renumbered (f : ExprId → ExprId) (next : Nat) :
    ∀ e : Expr, (e.renumbered f).numbered next = e.numbered next
  | ⟨_, .binary _ left right⟩ => by
    simp only [renumbered, Form.renumbered, numbered, count_renumbered,
      numbered_renumbered f _ left, numbered_renumbered f _ right]
  | ⟨_, .lone _ operand⟩ | ⟨_, .negation operand⟩ | ⟨_, .signed _ operand⟩
  | ⟨_, .parenthesized operand⟩ => by
    simp only [renumbered, Form.renumbered, numbered, numbered_renumbered f _ operand]
  | ⟨_, .ternary condition thenValue elseValue⟩ => by
    simp only [renumbered, Form.renumbered, numbered, count_renumbered,
      numbered_renumbered f _ condition, numbered_renumbered f _ thenValue,
      numbered_renumbered f _ elseValue]
  | ⟨_, .path _ _ methods⟩ => by
    simp only [renumbered, Form.renumbered, numbered, numberedMethods_renumbered f _ methods]
  | ⟨_, .final _⟩ | ⟨_, .number _⟩ | ⟨_, .string _⟩ | ⟨_, .bool _⟩ | ⟨_, .null⟩ | ⟨_, .now⟩ => by
    simp only [renumbered, Form.renumbered, numbered]

theorem numberedMethods_renumbered (f : ExprId → ExprId) (next : Nat) :
    ∀ methods, numberedMethods next (renumberedMethods f methods) = numberedMethods next methods
  | [] => by rw [renumberedMethods]
  | .simple _ :: methods => by
    simp only [renumberedMethods, numberedMethods, numberedMethods_renumbered f _ methods]
  | .parametric _ _ body :: methods => by
    simp only [renumberedMethods, numberedMethods, count_renumbered,
      numbered_renumbered f _ body, numberedMethods_renumbered f _ methods]

end

mutual

theorem renumbered_numbered (k : ExprId) (next : Nat) :
    ∀ e : Expr, (e.numbered next).renumbered (fun _ => k) = e.renumbered fun _ => k
  | ⟨_, .binary _ left right⟩ => by
    simp only [numbered, renumbered, Form.renumbered, renumbered_numbered k _ left,
      renumbered_numbered k _ right]
  | ⟨_, .lone _ operand⟩ | ⟨_, .negation operand⟩ | ⟨_, .signed _ operand⟩
  | ⟨_, .parenthesized operand⟩ => by
    simp only [numbered, renumbered, Form.renumbered, renumbered_numbered k _ operand]
  | ⟨_, .ternary condition thenValue elseValue⟩ => by
    simp only [numbered, renumbered, Form.renumbered, renumbered_numbered k _ condition,
      renumbered_numbered k _ thenValue, renumbered_numbered k _ elseValue]
  | ⟨_, .path _ _ methods⟩ => by
    simp only [numbered, renumbered, Form.renumbered, renumberedMethods_numbered k _ methods]
  | ⟨_, .final _⟩ | ⟨_, .number _⟩ | ⟨_, .string _⟩ | ⟨_, .bool _⟩ | ⟨_, .null⟩ | ⟨_, .now⟩ => by
    simp only [numbered, renumbered, Form.renumbered]

theorem renumberedMethods_numbered (k : ExprId) (next : Nat) : ∀ methods,
    renumberedMethods (fun _ => k) (numberedMethods next methods) =
      renumberedMethods (fun _ => k) methods
  | [] => by rw [numberedMethods]
  | .simple _ :: methods => by
    simp only [numberedMethods, renumberedMethods, renumberedMethods_numbered k _ methods]
  | .parametric _ _ body :: methods => by
    simp only [numberedMethods, renumberedMethods, renumbered_numbered k _ body,
      renumberedMethods_numbered k _ methods]

end

theorem bodies_renumbered (f : ExprId → ExprId) (methods : List Method) :
    bodies (renumberedMethods f methods) = (bodies methods).map (renumbered f) := by
  induction methods with
  | nil => rw [renumberedMethods, bodies, List.map_nil]
  | cons first rest ih =>
    cases first with
    | simple method => rw [renumberedMethods, bodies, bodies, ih]
    | parametric method binder body =>
      rw [renumberedMethods, bodies, bodies, List.map_cons, ih]

theorem children_renumbered (f : ExprId → ExprId) (e : Expr) :
    (e.renumbered f).children = e.children.map (renumbered f) := by
  obtain ⟨id, form⟩ := e
  rw [renumbered]
  cases form with
  | path head properties methods => exact bodies_renumbered f methods
  | _ => simp [Form.renumbered, children]

theorem at?_renumbered (f : ExprId → ExprId) (e : Expr) (p : Address) :
    (e.renumbered f).at? p = (e.at? p).map (renumbered f) := by
  induction p generalizing e with
  | nil => rfl
  | cons i p ih =>
    rw [at?, at?, children_renumbered, List.getElem?_map]
    cases e.children[i]? with
    | none => rfl
    | some c => exact ih c

theorem forgets : Forgets Expr.count Expr.numbered Expr.renumbered Expr.at? where
  count_renumbered := count_renumbered
  numbered_renumbered := numbered_renumbered
  renumbered_numbered := renumbered_numbered
  at?_renumbered := at?_renumbered

end Expr

/-! ### Nodes -/

section

variable (f : ExprId → ExprId)

def Invariant.renumbered (i : Invariant) : Invariant :=
  { i with expression := i.expression.renumbered f }

def Aggregate.renumbered (a : Aggregate) : Aggregate :=
  { a with invariants := a.invariants.map (Invariant.renumbered f) }

def AntiCorruption.renumbered (a : AntiCorruption) : AntiCorruption :=
  { a with invariants := a.invariants.map (Invariant.renumbered f) }

def ConstructorAssignment.renumbered (a : ConstructorAssignment) : ConstructorAssignment :=
  { a with expression := a.expression.renumbered f }

def Constructor.renumbered (c : Constructor) : Constructor :=
  { c with assignments := c.assignments.map (ConstructorAssignment.renumbered f) }

def Command.renumbered : Command → Command
  | assignment left right => assignment left (right.renumbered f)
  | other text => other text

def Operation.renumbered (o : Operation) : Operation :=
  { o with commands := o.commands.map (Command.renumbered f) }

def DomainObject.renumbered (o : DomainObject) : DomainObject :=
  { o with
    constructor := o.constructor.map (Constructor.renumbered f)
    operations := o.operations.map (Operation.renumbered f) }

/-- The model with other numbers on its expressions. -/
def Model.renumbered (m : Model) : Model :=
  { m with
    aggregates := m.aggregates.map (Aggregate.renumbered f)
    antiCorruptions := m.antiCorruptions.map (AntiCorruption.renumbered f)
    objects := m.objects.map (DomainObject.renumbered f) }

end

theorem Invariant.forgets : Forgets Invariant.count Invariant.numbered Invariant.renumbered
    Invariant.exprAt? where
  count_renumbered f i := Expr.forgets.count_renumbered f i.expression
  numbered_renumbered f next i := by
    rw [numbered, renumbered, Expr.forgets.numbered_renumbered, numbered]
  renumbered_numbered k next i := by
    rw [numbered, renumbered, Expr.forgets.renumbered_numbered, renumbered]
  at?_renumbered f i := Expr.forgets.at?_renumbered f i.expression

theorem Aggregate.forgets : Forgets Aggregate.count Aggregate.numbered Aggregate.renumbered
    Aggregate.exprAt? where
  count_renumbered f a := Invariant.forgets.list.count_renumbered f a.invariants
  numbered_renumbered f next a := by
    rw [numbered, renumbered, Invariant.forgets.list.numbered_renumbered, numbered]
  renumbered_numbered k next a := by
    rw [numbered, renumbered, Invariant.forgets.list.renumbered_numbered, renumbered]
  at?_renumbered f a := Invariant.forgets.list.at?_renumbered f a.invariants

theorem AntiCorruption.forgets : Forgets AntiCorruption.count AntiCorruption.numbered
    AntiCorruption.renumbered AntiCorruption.exprAt? where
  count_renumbered f a := Invariant.forgets.list.count_renumbered f a.invariants
  numbered_renumbered f next a := by
    rw [numbered, renumbered, Invariant.forgets.list.numbered_renumbered, numbered]
  renumbered_numbered k next a := by
    rw [numbered, renumbered, Invariant.forgets.list.renumbered_numbered, renumbered]
  at?_renumbered f a := Invariant.forgets.list.at?_renumbered f a.invariants

theorem ConstructorAssignment.forgets : Forgets ConstructorAssignment.count
    ConstructorAssignment.numbered ConstructorAssignment.renumbered
    ConstructorAssignment.exprAt? where
  count_renumbered f a := Expr.forgets.count_renumbered f a.expression
  numbered_renumbered f next a := by
    rw [numbered, renumbered, Expr.forgets.numbered_renumbered, numbered]
  renumbered_numbered k next a := by
    rw [numbered, renumbered, Expr.forgets.renumbered_numbered, renumbered]
  at?_renumbered f a := Expr.forgets.at?_renumbered f a.expression

theorem Constructor.forgets : Forgets Constructor.count Constructor.numbered
    Constructor.renumbered Constructor.exprAt? where
  count_renumbered f c := ConstructorAssignment.forgets.list.count_renumbered f c.assignments
  numbered_renumbered f next c := by
    rw [numbered, renumbered, ConstructorAssignment.forgets.list.numbered_renumbered, numbered]
  renumbered_numbered k next c := by
    rw [numbered, renumbered, ConstructorAssignment.forgets.list.renumbered_numbered, renumbered]
  at?_renumbered f c := ConstructorAssignment.forgets.list.at?_renumbered f c.assignments

theorem Command.forgets : Forgets Command.count Command.numbered Command.renumbered
    Command.exprAt? where
  count_renumbered f c := by
    cases c with
    | assignment left right => exact Expr.forgets.count_renumbered f right
    | other text => rfl
  numbered_renumbered f next c := by
    cases c with
    | assignment left right =>
      rw [numbered, renumbered, numbered, Expr.forgets.numbered_renumbered]
    | other text => rfl
  renumbered_numbered k next c := by
    cases c with
    | assignment left right =>
      rw [numbered, renumbered, renumbered, Expr.forgets.renumbered_numbered]
    | other text => rfl
  at?_renumbered f c p := by
    cases c with
    | assignment left right => exact Expr.forgets.at?_renumbered f right p
    | other text => rfl

theorem Operation.forgets : Forgets Operation.count Operation.numbered Operation.renumbered
    Operation.exprAt? where
  count_renumbered f o := Command.forgets.list.count_renumbered f o.commands
  numbered_renumbered f next o := by
    rw [numbered, renumbered, Command.forgets.list.numbered_renumbered, numbered]
  renumbered_numbered k next o := by
    rw [numbered, renumbered, Command.forgets.list.renumbered_numbered, renumbered]
  at?_renumbered f o := Command.forgets.list.at?_renumbered f o.commands

namespace DomainObject

theorem constructorCount_renumbered (f : ExprId → ExprId) (o : DomainObject) :
    (o.renumbered f).constructorCount = o.constructorCount := by
  unfold constructorCount renumbered
  cases o.constructor with
  | none => rfl
  | some c => exact Forgets.count_renumbered Constructor.forgets f c

theorem forgets : Forgets count numbered renumbered exprAt? where
  count_renumbered f o := by
    rw [count, constructorCount_renumbered, count]
    congr 1
    exact Operation.forgets.list.count_renumbered f o.operations
  numbered_renumbered f next o := by
    have hcount := constructorCount_renumbered f o
    have hconstructor : Constructor.numbered next ∘ Constructor.renumbered f =
        Constructor.numbered next :=
      funext fun c => Constructor.forgets.numbered_renumbered f next c
    unfold numbered
    rw [hcount]
    unfold renumbered
    rw [Operation.forgets.list.numbered_renumbered, Option.map_map, hconstructor]
  renumbered_numbered k next o := by
    have hconstructor : Constructor.renumbered (fun _ => k) ∘ Constructor.numbered next =
        Constructor.renumbered fun _ => k :=
      funext fun c => Constructor.forgets.renumbered_numbered k next c
    unfold renumbered numbered
    rw [Operation.forgets.list.renumbered_numbered, Option.map_map, hconstructor]
  at?_renumbered f o p := by
    rcases p with _ | ⟨_ | _ | i, p⟩
    · rfl
    · unfold exprAt? renumbered
      cases o.constructor with
      | none => rfl
      | some c => exact Constructor.forgets.at?_renumbered f c p
    · exact Operation.forgets.list.at?_renumbered f o.operations p
    · rfl

end DomainObject

/-! ### Models -/

namespace Model

variable (m : Model)

/-- **The model without its numbers:** all of them are made zero. -/
def bare : Model := m.renumbered fun _ => ⟨0⟩

/-- The result of numbering does not depend on the numbers before. -/
theorem numbered_renumbered (f : ExprId → ExprId) : (m.renumbered f).numbered = m.numbered := by
  have haggregates := Aggregate.forgets.list.count_renumbered f m.aggregates
  have hantiCorruptions := AntiCorruption.forgets.list.count_renumbered f m.antiCorruptions
  unfold renumbered numbered
  simp only [haggregates, hantiCorruptions, Aggregate.forgets.list.numbered_renumbered,
    AntiCorruption.forgets.list.numbered_renumbered,
    DomainObject.forgets.list.numbered_renumbered]

/-- Numbering changes nothing but the numbers. -/
theorem bare_numbered : m.numbered.bare = m.bare := by
  unfold bare renumbered numbered
  simp only [Aggregate.forgets.list.renumbered_numbered,
    AntiCorruption.forgets.list.renumbered_numbered, DomainObject.forgets.list.renumbered_numbered]

theorem exprAt?_renumbered (f : ExprId → ExprId) (p : Address) :
    (m.renumbered f).exprAt? p = (m.exprAt? p).map (Expr.renumbered f) := by
  rcases p with _ | ⟨_ | _ | _ | i, p⟩
  · rfl
  · exact Aggregate.forgets.list.at?_renumbered f m.aggregates p
  · exact AntiCorruption.forgets.list.at?_renumbered f m.antiCorruptions p
  · exact DomainObject.forgets.list.at?_renumbered f m.objects p
  · rfl

theorem isSome_exprAt?_bare (p : Address) : (m.bare.exprAt? p).isSome = (m.exprAt? p).isSome := by
  rw [bare, exprAt?_renumbered, Option.isSome_map]

/-- The addresses stay. -/
theorem isSome_exprAt?_numbered (p : Address) :
    (m.numbered.exprAt? p).isSome = (m.exprAt? p).isSome := by
  rw [← isSome_exprAt?_bare, bare_numbered, isSome_exprAt?_bare]

/-- There are as many expression nodes as before. -/
theorem length_exprNodes_numbered : m.numbered.exprNodes.length = m.exprNodes.length :=
  m.numbered.enumerates_exprNodes.length_eq m.enumerates_exprNodes m.isSome_exprAt?_numbered

variable {m}

theorem index_ids_exprNodes (h : m.exprNodes.length < UInt32.size) :
    m.numbered.exprNodes.map (·.id.index) = List.range m.exprNodes.length := by
  have hids := m.ids_exprNodes
  have hlength := congrArg List.length hids
  rw [List.length_map, length_exprNodes_numbered, idsFrom, List.length_map, List.length_range']
    at hlength
  calc
    _ = (m.numbered.exprNodes.map Expr.id).map Handle.index := by
      rw [List.map_map]
      rfl
    _ = (List.range' 0 m.exprNodes.length).map fun i => (Handle.ofIndex i : ExprId).index := by
      rw [hids, idsFrom, List.map_map, hlength]
      rfl
    _ = List.range' 0 m.exprNodes.length := by
      refine (List.map_congr_left fun i hi => Handle.index_ofIndex ?_).trans (List.map_id' _)
      have hlt := List.mem_range'_1.mp hi
      omega
    _ = List.range m.exprNodes.length := List.range_eq_range'.symm

/-- **Numbering is canonical.** At the addresses of the expression nodes, each taken once and in
order, a numbered model has the numbers 0, 1, 2 and so on. Nothing but the numbers has changed, they
depend only on the model without its numbers, and a second numbering changes nothing. -/
theorem numbered_canonical (h : m.exprNodes.length < UInt32.size) :
    (∃ places : List Address, places.Pairwise (· < ·) ∧
      (∀ p, p ∈ places ↔ (m.exprAt? p).isSome = true) ∧
      places.map (fun p => (m.numbered.exprAt? p).map (·.id.index)) =
        (List.range m.exprNodes.length).map some) ∧
    m.numbered.bare = m.bare ∧
    (∀ n : Model, n.bare = m.bare → n.numbered = m.numbered) ∧
    m.numbered.numbered = m.numbered := by
  refine ⟨?_, m.bare_numbered, fun n hn => ?_, m.numbered_numbered⟩
  · obtain ⟨places, hsorted, hnodes, hall⟩ := m.numbered.enumerates_exprNodes
    refine ⟨places, hsorted, fun p => ?_, ?_⟩
    · rw [← isSome_exprAt?_numbered]
      exact ⟨Enumerates.isSome_of_mem hnodes, hall p⟩
    · calc
        _ = (places.map m.numbered.exprAt?).map (Option.map (·.id.index)) := by
          rw [List.map_map]
          rfl
        _ = (m.numbered.exprNodes.map (·.id.index)).map some := by
          rw [hnodes, List.map_map, List.map_map]
          rfl
        _ = (List.range m.exprNodes.length).map some := by rw [index_ids_exprNodes h]
  · rw [← n.numbered_renumbered fun _ => ⟨0⟩, ← m.numbered_renumbered fun _ => ⟨0⟩]
    exact congrArg numbered hn

/-- The sample with a constructor and an operation; its expressions are not numbered in order, and
not apart. -/
def shuffledOrders : Model :=
  { openOrders with
    aggregates := [⟨"Orders", some ⟨0⟩, [⟨0⟩, ⟨1⟩],
      [⟨"still open", ⟨⟨4⟩, .negation ⟨⟨4⟩, .bool false⟩⟩⟩]⟩]
    objects :=
      [⟨"Order", ⟨0⟩, .entity ⟨none, none⟩, true, [⟨0⟩], [⟨0⟩],
          some ⟨[⟨"id", ⟨.none, .primitive "String"⟩⟩],
            [⟨"id", ⟨⟨3⟩, .path (.variable "id") [] []⟩⟩]⟩,
          none,
          [⟨"cheapen", [], none, [.other "log()", .assignment ⟨none, ["id"]⟩
            ⟨⟨1⟩, .path .root ["lines"] [.parametric .anyMatch "line" ⟨⟨0⟩, .bool true⟩]⟩]⟩]⟩,
        ⟨"Line", ⟨0⟩, .entity ⟨none, none⟩, false, [⟨1⟩], [], none, none, []⟩] }

theorem numbered_canonical_shuffledOrders :
    shuffledOrders.exprNodes.map (·.id.index) = [4, 4, 3, 1, 0] ∧
    shuffledOrders.exprNodes.length < UInt32.size ∧
    (∃ places : List Address, places.Pairwise (· < ·) ∧
      (∀ p, p ∈ places ↔ (shuffledOrders.exprAt? p).isSome = true) ∧
      places.map (fun p => (shuffledOrders.numbered.exprAt? p).map (·.id.index)) =
        [some 0, some 1, some 2, some 3, some 4]) ∧
    shuffledOrders.numbered.bare = shuffledOrders.bare := by
  have few : shuffledOrders.exprNodes.length < UInt32.size := by decide
  obtain ⟨hplaces, hbare, -, -⟩ := numbered_canonical few
  exact ⟨by decide, few, hplaces, hbare⟩

end Model

end DomainModel
