import DomainModel.Model.Links
import DomainModel.Model.Numbering

/-! # Numbering twice

Numbering replaces the numbers of expressions and nothing else. A model keeps its links, and to
number it again gives the same model: the result depends on the shapes of the expressions only. -/

namespace DomainModel

/-- A way to number the expressions in a value keeps their count, and forgets the old numbers. -/
structure Renumbers {α : Type} (count : α → Nat) (numbered : Nat → α → α) : Prop where
  count_numbered : ∀ next a, count (numbered next a) = count a
  numbered_numbered : ∀ next before a, numbered next (numbered before a) = numbered next a

/-! ### Lists -/

section

variable {α β : Type} {count : α → Nat} {numbered : Nat → α → α}

theorem length_numberedList (next : Nat) (as : List α) :
    (numberedList count numbered next as).length = as.length := by
  induction as generalizing next with
  | nil => rfl
  | cons a as ih => simp [numberedList, ih]

theorem map_numberedList {f : α → β} (h : ∀ next a, f (numbered next a) = f a) (next : Nat)
    (as : List α) : (numberedList count numbered next as).map f = as.map f := by
  induction as generalizing next with
  | nil => rfl
  | cons a as ih => simp [numberedList, ih, h]

theorem flatMap_numberedList {f : α → List β} (h : ∀ next a, f (numbered next a) = f a)
    (next : Nat) (as : List α) :
    (numberedList count numbered next as).flatMap f = as.flatMap f := by
  induction as generalizing next with
  | nil => rfl
  | cons a as ih => simp [numberedList, ih, h]

theorem Renumbers.list (h : Renumbers count numbered) :
    Renumbers (countList count) (numberedList count numbered) where
  count_numbered next as := by
    induction as generalizing next with
    | nil => rfl
    | cons a as ih =>
      have := ih (next + count a)
      simp only [countList, numberedList, List.foldr_cons, h.count_numbered] at this ⊢
      rw [this]
  numbered_numbered next before as := by
    induction as generalizing next before with
    | nil => rfl
    | cons a as ih => simp [numberedList, h.count_numbered, h.numbered_numbered, ih]

end

/-! ### Expressions -/

namespace Expr

mutual

theorem count_numbered (next : Nat) : ∀ e : Expr, (e.numbered next).count = e.count
  | ⟨_, .binary _ left right⟩ => by
    simp only [numbered, count, count_numbered _ left, count_numbered _ right]
  | ⟨_, .lone _ operand⟩ | ⟨_, .negation operand⟩ | ⟨_, .signed _ operand⟩
  | ⟨_, .parenthesized operand⟩ => by
    simp only [numbered, count, count_numbered _ operand]
  | ⟨_, .ternary condition thenValue elseValue⟩ => by
    simp only [numbered, count, count_numbered _ condition, count_numbered _ thenValue,
      count_numbered _ elseValue]
  | ⟨_, .path _ _ methods⟩ => by simp only [numbered, count, countMethods_numbered _ methods]
  | ⟨_, .final _⟩ | ⟨_, .number _⟩ | ⟨_, .string _⟩ | ⟨_, .bool _⟩ | ⟨_, .null⟩ | ⟨_, .now⟩ => by
    simp only [numbered, count]

theorem countMethods_numbered (next : Nat) :
    ∀ methods, countMethods (numberedMethods next methods) = countMethods methods
  | [] => rfl
  | .simple _ :: methods => by
    simp only [numberedMethods, countMethods, countMethods_numbered _ methods]
  | .parametric _ _ body :: methods => by
    simp only [numberedMethods, countMethods, count_numbered _ body,
      countMethods_numbered _ methods]

end

mutual

theorem numbered_numbered (next before : Nat) :
    ∀ e : Expr, (e.numbered before).numbered next = e.numbered next
  | ⟨_, .binary _ left right⟩ => by
    simp only [numbered, count_numbered, numbered_numbered _ _ left, numbered_numbered _ _ right]
  | ⟨_, .lone _ operand⟩ | ⟨_, .negation operand⟩ | ⟨_, .signed _ operand⟩
  | ⟨_, .parenthesized operand⟩ => by
    simp only [numbered, numbered_numbered _ _ operand]
  | ⟨_, .ternary condition thenValue elseValue⟩ => by
    simp only [numbered, count_numbered, numbered_numbered _ _ condition,
      numbered_numbered _ _ thenValue, numbered_numbered _ _ elseValue]
  | ⟨_, .path _ _ methods⟩ => by simp only [numbered, numberedMethods_numbered _ _ methods]
  | ⟨_, .final _⟩ | ⟨_, .number _⟩ | ⟨_, .string _⟩ | ⟨_, .bool _⟩ | ⟨_, .null⟩ | ⟨_, .now⟩ => by
    simp only [numbered]

theorem numberedMethods_numbered (next before : Nat) : ∀ methods,
    numberedMethods next (numberedMethods before methods) = numberedMethods next methods
  | [] => rfl
  | .simple _ :: methods => by
    simp only [numberedMethods, numberedMethods_numbered _ _ methods]
  | .parametric _ _ body :: methods => by
    simp only [numberedMethods, count_numbered, numbered_numbered _ _ body,
      numberedMethods_numbered _ _ methods]

end

end Expr

/-! ### Nodes -/

theorem Invariant.renumbers : Renumbers Invariant.count Invariant.numbered where
  count_numbered next i := Expr.count_numbered next i.expression
  numbered_numbered next before i := by simp only [numbered, Expr.numbered_numbered]

theorem Aggregate.renumbers : Renumbers Aggregate.count Aggregate.numbered where
  count_numbered next a := (Renumbers.list Invariant.renumbers).count_numbered next a.invariants
  numbered_numbered next before a := by
    simp only [numbered, (Renumbers.list Invariant.renumbers).numbered_numbered]

theorem AntiCorruption.renumbers : Renumbers AntiCorruption.count AntiCorruption.numbered where
  count_numbered next a := (Renumbers.list Invariant.renumbers).count_numbered next a.invariants
  numbered_numbered next before a := by
    simp only [numbered, (Renumbers.list Invariant.renumbers).numbered_numbered]

theorem ConstructorAssignment.renumbers :
    Renumbers ConstructorAssignment.count ConstructorAssignment.numbered where
  count_numbered next a := Expr.count_numbered next a.expression
  numbered_numbered next before a := by simp only [numbered, Expr.numbered_numbered]

theorem Constructor.renumbers : Renumbers Constructor.count Constructor.numbered where
  count_numbered next c :=
    (Renumbers.list ConstructorAssignment.renumbers).count_numbered next c.assignments
  numbered_numbered next before c := by
    simp only [numbered, (Renumbers.list ConstructorAssignment.renumbers).numbered_numbered]

theorem Command.renumbers : Renumbers Command.count Command.numbered where
  count_numbered next c := by
    cases c with
    | assignment left right => exact Expr.count_numbered next right
    | other text => rfl
  numbered_numbered next before c := by
    cases c with
    | assignment left right => simp only [numbered, Expr.numbered_numbered]
    | other text => rfl

theorem Operation.renumbers : Renumbers Operation.count Operation.numbered where
  count_numbered next o := (Renumbers.list Command.renumbers).count_numbered next o.commands
  numbered_numbered next before o := by
    simp only [numbered, (Renumbers.list Command.renumbers).numbered_numbered]

namespace DomainObject

theorem constructorCount_numbered (next : Nat) (o : DomainObject) :
    (o.numbered next).constructorCount = o.constructorCount := by
  unfold constructorCount numbered
  cases o.constructor with
  | none => rfl
  | some c => exact Renumbers.count_numbered Constructor.renumbers next c

theorem renumbers : Renumbers DomainObject.count DomainObject.numbered where
  count_numbered next o := by
    rw [count, constructorCount_numbered, count]
    congr 1
    exact (Renumbers.list Operation.renumbers).count_numbered _ o.operations
  numbered_numbered next before o := by
    have hcount := constructorCount_numbered before o
    unfold numbered at hcount ⊢
    simp only [hcount, (Renumbers.list Operation.renumbers).numbered_numbered, Option.map_map]
    congr 2
    funext c
    exact Renumbers.numbered_numbered Constructor.renumbers next before c

theorem signatures_numbered (next : Nat) (o : DomainObject) :
    (o.numbered next).signatures = o.signatures := by
  unfold signatures
  congr 2
  · unfold numbered
    cases o.constructor <;> rfl
  · refine flatMap_numberedList ?_ _ o.operations
    intro _ _
    rfl

theorem handles_numbered (next : Nat) (o : DomainObject) :
    (o.numbered next).handles = o.handles := by
  unfold handles
  rw [signatures_numbered]
  rfl

end DomainObject

/-! ### Models -/

namespace Model

variable (m : Model)

/-- **A numbered model is the same when it is numbered again.** -/
theorem numbered_numbered : m.numbered.numbered = m.numbered := by
  have hcount := (Renumbers.list Aggregate.renumbers).count_numbered 0 m.aggregates
  have hcount' := fun next =>
    (Renumbers.list AntiCorruption.renumbers).count_numbered next m.antiCorruptions
  unfold numbered
  simp only [hcount, hcount', (Renumbers.list Aggregate.renumbers).numbered_numbered,
    (Renumbers.list AntiCorruption.renumbers).numbered_numbered,
    (Renumbers.list DomainObject.renumbers).numbered_numbered]

theorem size_numbered (arena : Arena) : m.numbered.size arena = m.size arena := by
  cases arena with
  | aggregate | object | antiCorruption => exact length_numberedList ..
  | _ => rfl

/-- Numbering keeps the links. -/
theorem links_numbered : m.numbered.links = m.links := by
  have haggregates : m.numbered.aggregates.flatMap
      (fun a => linksOf (.aggregate a.name) a.handles) =
        m.aggregates.flatMap fun a => linksOf (.aggregate a.name) a.handles := by
    refine flatMap_numberedList ?_ _ m.aggregates
    intro _ _
    rfl
  have hobjects : m.numbered.objects.flatMap (fun o => linksOf (.object o.name) o.handles) =
      m.objects.flatMap fun o => linksOf (.object o.name) o.handles := by
    refine flatMap_numberedList ?_ _ m.objects
    intro next o
    rw [DomainObject.handles_numbered]
    rfl
  have hantiCorruptions : m.numbered.antiCorruptions.flatMap
      (fun a => linksOf (.antiCorruption a.name) a.handles) =
        m.antiCorruptions.flatMap fun a => linksOf (.antiCorruption a.name) a.handles := by
    refine flatMap_numberedList ?_ _ m.antiCorruptions
    intro _ _
    rfl
  unfold links
  rw [haggregates, hobjects, hantiCorruptions]
  rfl

/-- **Numbering keeps a model linked.** -/
theorem linked_numbered : m.numbered.Linked ↔ m.Linked := by
  unfold Linked Holds
  simp only [links_numbered, size_numbered]

end Model

end DomainModel
