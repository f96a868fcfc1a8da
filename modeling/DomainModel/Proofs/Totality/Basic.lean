import DomainModel.Check

/-! # Look-ups and checks that miss nothing

`x.Finds P` says of a look-up or a check `x` that nothing is missed on the way and that the value
has the property `P`. The property is what the rest of the way needs to know, for instance that a
handle points inside its arena. There is one rule for each way to put look-ups and checks together;
a rule about a step in the middle hands the property of its value on to the steps behind it. -/

namespace DomainModel

variable {α β : Type}

namespace Lookup

/-- Nothing is missed, and the value has the property. -/
structure Finds (x : Lookup α) (P : α → Prop) : Prop where
  misses_eq : x.misses = []
  value_prop : P x.value

/-- Nothing is missed, whatever the value. -/
abbrev Total (x : Lookup α) : Prop := x.Finds fun _ => True

namespace Finds

variable {x : Lookup α} {P Q : α → Prop}

theorem pure {a : α} (h : P a) : (Pure.pure a : Lookup α).Finds P := ⟨rfl, h⟩

theorem mono (hx : x.Finds P) (h : ∀ a, P a → Q a) : x.Finds Q := ⟨hx.1, h _ hx.2⟩

theorem total (hx : x.Finds P) : x.Total := hx.mono fun _ _ => trivial

theorem bind {f : α → Lookup β} {R : β → Prop} (hx : x.Finds P)
    (hf : ∀ a, P a → (f a).Finds R) : (x >>= f).Finds R := by
  obtain ⟨h1, h2⟩ := hf x.value hx.2
  refine ⟨?_, h2⟩
  rw [misses_bind, hx.1, h1]
  rfl

end Finds

theorem finds_item [Inhabited α] {as : List α} {i : Nat} (h : i < as.length) :
    (item as i).Finds (· ∈ as) := by
  unfold item
  rw [List.getElem?_eq_getElem h]
  exact ⟨rfl, List.getElem_mem h⟩

theorem finds_difference {a b : Nat} (h : b ≤ a) : (difference a b).Finds (· = a - b) := by
  unfold difference
  rw [if_pos h]
  exact ⟨rfl, rfl⟩

theorem total_entry [Inhabited α] {table : List (String × α)} {name : String}
    (h : name ∈ table.map (·.1)) : (entry table name).Total := by
  unfold entry
  cases hfind : table.find? (·.1 == name) with
  | none =>
    obtain ⟨p, hp, rfl⟩ := List.mem_map.mp h
    have := List.find?_eq_none.mp hfind p hp
    simp at this
  | some p => exact ⟨rfl, trivial⟩

/-! ### Searches -/

theorem finds_find? {p : α → Lookup Bool} {as : List α} (h : ∀ a ∈ as, (p a).Total) :
    (find? p as).Finds fun r => ∀ a ∈ r, a ∈ as := by
  induction as with
  | nil => exact Finds.pure (by simp)
  | cons a as ih =>
    refine (h a (by simp)).bind fun b _ => ?_
    cases b with
    | true => exact Finds.pure (by simp)
    | false =>
      exact (ih fun c hc => h c (by simp [hc])).mono fun r hr c hc => by simp [hr c hc]

theorem finds_filter {p : α → Lookup Bool} {as : List α} (h : ∀ a ∈ as, (p a).Total) :
    (filter p as).Finds fun r => ∀ a ∈ r, a ∈ as := by
  induction as with
  | nil => exact Finds.pure (by simp)
  | cons a as ih =>
    refine (h a (by simp)).bind fun b _ => ?_
    refine (ih fun c hc => h c (by simp [hc])).bind fun r hr => Finds.pure fun c hc => ?_
    cases b with
    | true =>
      rcases List.mem_cons.mp hc with rfl | hc
      · simp
      · simp [hr c hc]
    | false => simp [hr c hc]

theorem total_any {p : α → Lookup Bool} {as : List α} (h : ∀ a ∈ as, (p a).Total) :
    (any p as).Total := by
  induction as with
  | nil => exact Finds.pure trivial
  | cons a as ih =>
    refine (h a (by simp)).bind fun b _ => ?_
    cases b with
    | true => exact Finds.pure trivial
    | false => exact ih fun c hc => h c (by simp [hc])

theorem finds_map {f : α → Lookup β} {as : List α} {P : β → Prop} (h : ∀ a ∈ as, (f a).Finds P) :
    (map f as).Finds fun r => ∀ b ∈ r, P b := by
  induction as with
  | nil => exact Finds.pure (by simp)
  | cons a as ih =>
    refine (h a (by simp)).bind fun b hb => ?_
    refine (ih fun c hc => h c (by simp [hc])).bind fun r hr => Finds.pure ?_
    simpa using ⟨hb, hr⟩

theorem total_map {f : α → Lookup β} {as : List α} (h : ∀ a ∈ as, (f a).Total) :
    (map f as).Total :=
  (finds_map h).total

theorem finds_flatMap {f : α → Lookup (List β)} {as : List α} {P : β → Prop}
    (h : ∀ a ∈ as, (f a).Finds fun r => ∀ b ∈ r, P b) :
    (flatMap f as).Finds fun r => ∀ b ∈ r, P b := by
  induction as with
  | nil => exact Finds.pure (by simp)
  | cons a as ih =>
    refine (h a (by simp)).bind fun b hb => ?_
    refine (ih fun c hc => h c (by simp [hc])).bind fun r hr => Finds.pure fun c hc => ?_
    rcases List.mem_append.mp hc with hc | hc
    · exact hb c hc
    · exact hr c hc

end Lookup

namespace Check

/-- Nothing is missed, and the value has the property. -/
structure Finds (x : Check α) (P : α → Prop) : Prop where
  misses_eq : x.misses = []
  value_prop : P x.value

/-- Nothing is missed, whatever the value. -/
abbrev Total (x : Check α) : Prop := x.Finds fun _ => True

namespace Finds

variable {x : Check α} {P Q : α → Prop}

theorem pure {a : α} (h : P a) : (Pure.pure a : Check α).Finds P := ⟨rfl, h⟩

theorem mono (hx : x.Finds P) (h : ∀ a, P a → Q a) : x.Finds Q := ⟨hx.1, h _ hx.2⟩

theorem total (hx : x.Finds P) : x.Total := hx.mono fun _ _ => trivial

theorem bind {f : α → Check β} {R : β → Prop} (hx : x.Finds P)
    (hf : ∀ a, P a → (f a).Finds R) : (x >>= f).Finds R := by
  obtain ⟨h1, h2⟩ := hf x.value hx.2
  refine ⟨?_, h2⟩
  rw [misses_bind, hx.1, h1]
  rfl

end Finds

theorem total_report (p : Problem) (n : NodeRef) (f : Feature) : (report p n f).Total :=
  ⟨rfl, trivial⟩

theorem total_reportAt (p : Problem) (n : NodeRef) (f : Feature) (i : Nat) :
    (reportAt p n f i).Total :=
  ⟨rfl, trivial⟩

/-! ### Conditional reports

A report that is made under a condition, followed by the rest `f` of a check. -/

section

variable {b : Prop} {_ : Decidable b}

theorem total_ite {c : Check Unit} (hc : c.Total) : (if b then c else pure ()).Total := by
  split
  · exact hc
  · exact .pure trivial

theorem finds_ite_bind {c : Check Unit} {f : Unit → Check α} {P : α → Prop} (hc : c.Total)
    (hf : ∀ r, (f r).Finds P) : (if b then c >>= f else f ()).Finds P := by
  split
  · exact hc.bind fun r _ => hf r
  · exact hf ()

theorem finds_ite_lift_bind {x : Lookup β} {c : β → Check Unit} {f : Unit → Check α} {P : α → Prop}
    (hc : (liftM x >>= c : Check Unit).Total) (hf : ∀ r, (f r).Finds P) :
    (if b then liftM x >>= fun a => c a >>= f else f ()).Finds P := by
  split
  · have h := hc.bind fun r _ => hf r
    rwa [bind_assoc] at h
  · exact hf ()

end

/-! ### Repeated checks -/

theorem total_each {f : α → Check Unit} {as : List α} (h : ∀ a ∈ as, (f a).Total) :
    (each f as).Total := by
  refine ⟨?_, trivial⟩
  rw [misses_each, List.flatMap_eq_nil_iff]
  exact fun a ha => (h a ha).1

theorem total_eachIdx {f : α → Nat → Check Unit} {as : List α} (h : ∀ a ∈ as, ∀ i, (f a i).Total) :
    (eachIdx f as).Total := by
  refine total_each fun p hp => ?_
  obtain ⟨a, i⟩ := p
  exact h a (List.fst_mem_of_mem_zipIdx hp) i

end Check

/-- A look-up is a check that reports nothing. -/
theorem Lookup.Finds.lift {x : Lookup α} {P : α → Prop} (hx : x.Finds P) :
    (liftM x : Check α).Finds P :=
  ⟨hx.1, hx.2⟩

end DomainModel
