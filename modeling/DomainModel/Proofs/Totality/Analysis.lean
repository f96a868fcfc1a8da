import DomainModel.Proofs.Loading
import DomainModel.Proofs.Totality.Rules

/-! # Loading guards the analysis

Loading accepts a described model exactly if its handles are in range, and the analysis of a model
in range misses nothing (`total_check`). So the analysis of a loaded model never follows a handle
that points nowhere, reads behind the end of a list or finds a name without a count. -/

namespace DomainModel.Model

variable {m : Model}

/-! ### The analysis -/

section

variable (hm : m.InRange)
include hm

theorem total_checksOf (policy : TernaryPolicy) {subject : Subject} (hs : subject ∈ m.subjects) :
    ∀ p ∈ m.checksOf policy subject, p.2.Total := by
  simp only [subjects, List.mem_cons, List.mem_append, List.mem_map] at hs
  rcases hs with rfl | (((⟨c, hc, rfl⟩ | ⟨h, hh, rfl⟩) | ⟨a, ha, rfl⟩) | ⟨o, ho, rfl⟩) |
    ⟨ac, hac, rfl⟩
  · rw [checksOf, List.forall_mem_singleton]
    exact total_checkNames hm
  · rw [checksOf, List.forall_mem_singleton]
    exact total_checkBoundedContext hm (holds_of_mem_contextIds hc)
  · rw [checksOf, List.forall_mem_singleton]
    exact total_checkContextMap hm (holds_of_mem_contextMapIds hh)
  · have ha := holds_of_mem_aggregateIds ha
    rw [checksOf, List.forall_mem_cons, List.forall_mem_singleton]
    exact ⟨total_checkAggregate hm ha, total_checkInvariants hm policy ha⟩
  · have ho := holds_of_mem_objectIds ho
    rw [checksOf, List.forall_mem_cons, List.forall_mem_cons, List.forall_mem_singleton]
    exact ⟨total_checkEntity hm ho, total_checkConstructor hm policy ho,
      total_checkOperations hm policy ho⟩
  · have hac := holds_of_mem_antiCorruptionIds hac
    rw [checksOf, List.forall_mem_cons, List.forall_mem_singleton]
    exact ⟨total_checkAntiCorruption hm hac, total_checkTranslationInvariants hm policy hac⟩

/-- **The analysis of a model in range misses nothing.** -/
theorem total_check (settings : Settings) : (m.check settings).Total := by
  refine Check.total_each fun subject hs => ?_
  refine Check.total_each fun p hp => ?_
  have hcheck := total_checksOf hm settings.policy hs p hp
  obtain ⟨group, check⟩ := p
  exact Check.total_ite hcheck

end

/-- **Loading guards the analysis.** A described model is accepted exactly if every handle that it
stores points inside its arena, and then the analysis misses nothing, whatever the settings. -/
theorem loading_guards_analysis :
    (∀ text m, Describes text m → ((∃ loaded, ofText text = .ok loaded) ↔ m.InRange)) ∧
      ∀ text loaded settings, ofText text = .ok loaded →
        (loaded.analyze settings).misses = [] := by
  refine ⟨fun text m hm => ⟨?_, fun h => ?_⟩, fun text loaded settings h => ?_⟩
  · rintro ⟨loaded, hloaded⟩
    obtain ⟨n, hn, hlinked, -⟩ := ofText_eq_ok.mp hloaded
    rw [hm.eq hn]
    exact linked_iff_inRange.mp hlinked
  · exact ⟨m.numbered, ofText_eq_ok.mpr ⟨m, hm, linked_iff_inRange.mpr h, rfl⟩⟩
  · exact (total_check (inRange_of_ofText h) settings).misses_eq

/-- The sample with a reference to an object that does not exist. -/
def strayOrders : Model := { orders with references := [⟨"lines", ⟨0⟩, some ⟨7⟩, .list⟩] }

theorem loading_guards_analysis_orders :
    Describes orders.text orders ∧ Describes strayOrders.text strayOrders ∧
      (∃ loaded, ofText orders.text = .ok loaded ∧ (loaded.analyze .default).misses = []) ∧
      ¬ ∃ loaded, ofText strayOrders.text = .ok loaded := by
  have described : Describes orders.text orders := describes_text (by decide)
  have stray : Describes strayOrders.text strayOrders := describes_text (by decide)
  obtain ⟨accepts, misses⟩ := loading_guards_analysis
  refine ⟨described, stray, ?_, ?_⟩
  · obtain ⟨loaded, h⟩ := (accepts _ _ described).mpr (linked_iff_inRange.mp (by decide))
    exact ⟨loaded, h, misses _ _ _ h⟩
  · intro h
    have linked : strayOrders.Linked := linked_iff_inRange.mpr ((accepts _ _ stray).mp h)
    exact absurd linked (by decide)

end DomainModel.Model
