import DomainModel.Proofs.Clean.Basic
import DomainModel.Proofs.Clean.Navigation
import DomainModel.Proofs.Totality.Navigation
import DomainModel.Rules.Names

/-! # Clean names

The table that the rule about names builds counts the occurrences of every name, so a category about
which nothing is reported has distinct names. For bounded contexts this means that a name stands for
one context, as long as the handles are in range. -/

namespace DomainModel

/-! ### Counting -/

theorem entry_cons (known : String) (count : Nat) (rest : List (String × Nat)) (name : String) :
    (Lookup.entry ((known, count) :: rest) name).value =
      if known = name then count else (Lookup.entry rest name).value := by
  by_cases h : known = name <;> simp [Lookup.entry, h]

theorem entry_countName (name other : String) (counts : List (String × Nat)) :
    (Lookup.entry (countName name counts) other).value =
      (Lookup.entry counts other).value + if name = other then 1 else 0 := by
  induction counts with
  | nil => by_cases h : name = other <;> simp [countName, Lookup.entry, h]
  | cons p rest ih =>
    obtain ⟨known, count⟩ := p
    rw [countName, entry_cons]
    by_cases hknown : known = name
    · rw [if_pos (by simpa using hknown), entry_cons, hknown]
      split <;> rfl
    · rw [if_neg (by simpa using hknown), entry_cons, ih]
      split
      · next h =>
        rw [if_neg fun h' => hknown (h.trans h'.symm)]
        rfl
      · rfl

/-- The table counts the names. -/
theorem entry_nameCounts (names : List String) (name : String) :
    (Lookup.entry (nameCounts names) name).value = names.count name := by
  suffices h : ∀ counts, (Lookup.entry
      (names.foldl (fun counts name => countName name counts) counts) name).value =
        (Lookup.entry counts name).value + names.count name by
    rw [nameCounts, h]
    simp [Lookup.entry]
  induction names with
  | nil => simp
  | cons first rest ih =>
    intro counts
    rw [List.foldl_cons, ih, entry_countName, List.count_cons]
    simp only [beq_iff_eq]
    omega

/-- Names are reported exactly if one of them occurs twice. -/
theorem avoids_reportRepeated {P : Problem → Prop} {category : NameCategory}
    (hP : ∀ name, P (.nameRepeated category name)) (named : List (NodeRef × String)) :
    (reportRepeated category named).Avoids P ↔ (named.map (·.2)).Nodup := by
  simp only [reportRepeated, Check.avoids_each, Check.avoids_lift_bind, Check.avoids_ite,
    Check.avoids_report, entry_nameCounts, hP, not_true, imp_false, gt_iff_lt, Nat.not_lt,
    List.nodup_iff_count_le_one]
  constructor
  · intro h name
    by_cases hname : name ∈ named.map (·.2)
    · obtain ⟨p, hp, rfl⟩ := List.mem_map.mp hname
      exact h p hp
    · rw [List.count_eq_zero_of_not_mem hname]
      exact Nat.zero_le 1
  · exact fun h p _ => h p.2

/-! ### Bounded contexts -/

namespace Model

variable {m : Model}

/-- If nothing is reported about the names of contexts, a name stands for one context. -/
theorem context_name_inj {P : Problem → Prop} (hP : ∀ name, P (.nameRepeated .context name))
    (h : m.checkNames.Avoids P) {c d : ContextId} (hc : m.Holds c.any) (hd : m.Holds d.any)
    (heq : (m.context c).value.name = (m.context d).value.name) : c = d := by
  rw [checkNames, Check.avoids_lift_bind, Check.avoids_bind, avoids_reportRepeated hP] at h
  have hnames : (m.contextIds.map fun c => (m.context c).value.name).Nodup := by
    simpa [Function.comp_def] using h.1
  exact List.inj_on_of_nodup_map hnames (Handle.mem_firsts hc) (Handle.mem_firsts hd) heq

end Model

end DomainModel
