import DomainModel.Check

/-! # Checks that do not report

`c.Avoids P` says that the check `c` reports no problem with the property `P`. There is one rule for
each way to put checks together, and each is an equivalence: a check avoids `P` exactly if every
report on its way either is of another kind or is not made. So the rules open a check that has come
out clean and leave the conditions under which it would have reported. -/

namespace DomainModel

/-- The problem is an error and no warning. -/
def Problem.IsError (p : Problem) : Prop := p.severity = .error

@[simp] theorem Problem.isError_iff {p : Problem} :
    p.IsError ↔ p ≠ .antiCorruptionCustomer ∧ p ≠ .organizationalWithoutTeam := by
  cases p <;> simp [IsError, severity]

namespace Check

variable {α β : Type} {P : Problem → Prop}

/-- No finding is of a problem with the property. -/
def Avoids (P : Problem → Prop) (c : Check α) : Prop := ∀ f ∈ c.findings, ¬P f.problem

/-- Some finding is of the problem. -/
def Reports (c : Check α) (p : Problem) : Prop := ∃ f ∈ c.findings, f.problem = p

instance (c : Check α) (p : Problem) : Decidable (c.Reports p) :=
  inferInstanceAs (Decidable (∃ f ∈ c.findings, f.problem = p))

theorem reports_iff {c : Check α} {p : Problem} : c.Reports p ↔ ¬c.Avoids (· = p) := by
  simp [Reports, Avoids]

theorem findings_eq_nil_iff {c : Check α} : c.findings = [] ↔ c.Avoids fun _ => True := by
  simp [Avoids, List.eq_nil_iff_forall_not_mem]

@[simp] theorem avoids_pure {a : α} : (pure a : Check α).Avoids P := by
  simp [Avoids]

theorem avoids_bind {c : Check α} {f : α → Check β} :
    (c >>= f).Avoids P ↔ c.Avoids P ∧ (f c.value).Avoids P := by
  simp [Avoids, or_imp, forall_and]

@[simp] theorem avoids_functor {c : Check α} {f : α → β} : (f <$> c).Avoids P ↔ c.Avoids P := by
  simp [Avoids]

@[simp] theorem avoids_lift {x : Lookup α} : (liftM x : Check α).Avoids P := by
  simp [Avoids]

/-- A look-up in front reports nothing. -/
theorem avoids_lift_bind {x : Lookup α} {f : α → Check β} :
    ((liftM x : Check α) >>= f).Avoids P ↔ (f x.value).Avoids P := by
  rw [avoids_bind]
  exact and_iff_right avoids_lift

@[simp] theorem avoids_report {p : Problem} {n : NodeRef} {f : Feature} :
    (report p n f).Avoids P ↔ ¬P p := by
  simp [Avoids]

@[simp] theorem avoids_reportAt {p : Problem} {n : NodeRef} {f : Feature} {i : Nat} :
    (reportAt p n f i).Avoids P ↔ ¬P p := by
  simp [Avoids]

/-! ### Conditional reports -/

section

variable {b : Prop} {_ : Decidable b}

theorem avoids_ite {c : Check Unit} :
    (if b then c else pure ()).Avoids P ↔ (b → c.Avoids P) := by
  split <;> simp_all

theorem avoids_ite_bind {c : Check Unit} {f : Unit → Check α} :
    (if b then c >>= f else f ()).Avoids P ↔ (b → c.Avoids P) ∧ (f ()).Avoids P := by
  split <;> simp_all [avoids_bind]

theorem avoids_ite_lift_bind {x : Lookup β} {c : β → Check Unit} {f : Unit → Check α} :
    (if b then liftM x >>= fun a => c a >>= f else f ()).Avoids P ↔
      (b → (c x.value).Avoids P) ∧ (f ()).Avoids P := by
  split <;> simp_all [avoids_bind]

theorem mem_findings_ite_bind {c : Check Unit} {f : Unit → Check α} {g : Finding} :
    g ∈ (if b then c >>= f else f ()).findings ↔ b ∧ g ∈ c.findings ∨ g ∈ (f ()).findings := by
  split <;> simp_all

end

/-! ### Repeated checks -/

theorem avoids_each {f : α → Check Unit} {as : List α} :
    (each f as).Avoids P ↔ ∀ a ∈ as, (f a).Avoids P := by
  simp only [Avoids, findings_each, List.mem_flatMap]
  exact ⟨fun h a ha g hg => h g ⟨a, ha, hg⟩, fun h g ⟨a, ha, hg⟩ => h a ha g hg⟩

/-- Items are met with their positions. -/
theorem avoids_eachIdx {f : α → Nat → Check Unit} {as : List α} :
    (eachIdx f as).Avoids P ↔ ∀ i a, as[i]? = some a → (f a i).Avoids P := by
  rw [eachIdx, avoids_each, Prod.forall]
  simp only [List.mem_zipIdx_iff_getElem?]
  exact forall_comm

end Check

/-! ### Names seen before -/

/-- Names are distinct and none of them has been seen before: step by step, each one is new and is
seen from there on. -/
theorem nodup_unseen_cons {α : Type} {a : α} {as seen : List α} :
    ((a :: as).Nodup ∧ ∀ b ∈ a :: as, b ∉ seen) ↔
      a ∉ seen ∧ as.Nodup ∧ ∀ b ∈ as, b ∉ a :: seen := by
  simp only [List.nodup_cons, List.mem_cons, not_or, forall_eq_or_imp]
  constructor
  · rintro ⟨⟨hnot, hnodup⟩, hnew, hrest⟩
    exact ⟨hnew, hnodup, fun b hb => ⟨fun heq => hnot (heq ▸ hb), hrest b hb⟩⟩
  · rintro ⟨hnew, hnodup, hrest⟩
    exact ⟨⟨fun hmem => (hrest a hmem).1 rfl, hnodup⟩, hnew, fun b hb => (hrest b hb).2⟩

end DomainModel
