import DomainModel.Check

/-! # Where a check reports

`c.Within P` says that every finding of the check `c` is at a place with the property `P`. There is
one rule for each way to put checks together. A look-up reports nothing, so the check behind it is
judged at the value that was found. -/

namespace DomainModel

/-- All features of the node, taken as a whole, are places with the property. -/
def Everywhere (P : Location → Prop) (node : NodeRef) : Prop := ∀ f, P ⟨node, f, none⟩

/-- The first `n` positions in a feature of the node are places with the property. -/
def Throughout (P : Location → Prop) (node : NodeRef) (feature : Feature) (n : Nat) : Prop :=
  ∀ i < n, P ⟨node, feature, some i⟩

namespace Check

variable {α β : Type} {P : Location → Prop}

/-- Every finding is at a place with the property. -/
def Within (P : Location → Prop) (c : Check α) : Prop := ∀ f ∈ c.findings, P f.location

theorem within_pure {a : α} : (pure a : Check α).Within P := by
  intro f hf
  cases hf

theorem Within.bind {c : Check α} {f : α → Check β} (hc : c.Within P)
    (hf : ∀ a, (f a).Within P) : (c >>= f).Within P := by
  intro g hg
  rw [findings_bind, List.mem_append] at hg
  rcases hg with hg | hg
  · exact hc g hg
  · exact hf _ g hg

/-- A look-up in front reports nothing. -/
theorem within_lift_bind {x : Lookup α} {f : α → Check β} (h : (f x.value).Within P) :
    ((liftM x : Check α) >>= f).Within P := by
  intro g hg
  rw [findings_bind, findings_lift, List.nil_append] at hg
  exact h g hg

theorem within_report {p : Problem} {n : NodeRef} {f : Feature} (h : P ⟨n, f, none⟩) :
    (report p n f).Within P := by
  intro g hg
  rw [List.mem_singleton.mp hg]
  exact h

theorem within_reportAt {p : Problem} {n : NodeRef} {f : Feature} {i : Nat}
    (h : P ⟨n, f, some i⟩) : (reportAt p n f i).Within P := by
  intro g hg
  rw [List.mem_singleton.mp hg]
  exact h

/-! ### Conditional reports -/

section

variable {b : Prop} {_ : Decidable b}

theorem within_ite {c : Check Unit} (hc : c.Within P) : (if b then c else pure ()).Within P := by
  split
  · exact hc
  · exact within_pure

theorem within_ite_bind {c : Check Unit} {f : Unit → Check α} (hc : c.Within P)
    (hf : ∀ r, (f r).Within P) : (if b then c >>= f else f ()).Within P := by
  split
  · exact hc.bind hf
  · exact hf ()

theorem within_ite_lift_bind {x : Lookup β} {c : β → Check Unit} {f : Unit → Check α}
    (hc : (c x.value).Within P) (hf : ∀ r, (f r).Within P) :
    (if b then liftM x >>= fun a => c a >>= f else f ()).Within P := by
  split
  · exact within_lift_bind (hc.bind hf)
  · exact hf ()

end

/-! ### Repeated checks -/

theorem within_each {f : α → Check Unit} {as : List α} (h : ∀ a ∈ as, (f a).Within P) :
    (each f as).Within P := by
  intro g hg
  rw [findings_each] at hg
  obtain ⟨a, ha, hg⟩ := List.mem_flatMap.mp hg
  exact h a ha g hg

theorem within_eachIdx {f : α → Nat → Check Unit} {as : List α}
    (h : ∀ i a, as[i]? = some a → (f a i).Within P) : (eachIdx f as).Within P := by
  refine within_each fun p hp => ?_
  obtain ⟨a, i⟩ := p
  exact h i a (List.mem_zipIdx_iff_getElem?.mp hp)

end Check

end DomainModel
