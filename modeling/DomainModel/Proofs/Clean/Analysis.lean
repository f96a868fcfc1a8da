import DomainModel.Analysis
import DomainModel.Proofs.Clean.Basic

/-! # Clean analyses

An analysis is clean if it reports no error. Then none of its checks does, the skipped ones apart. -/

namespace DomainModel.Model

variable {m : Model}

theorem hasErrors_analyze (settings : Settings) :
    (m.analyze settings).value.hasErrors = false ↔
      (m.check settings).Avoids Problem.IsError := by
  simp [analyze, Bag.hasErrors, Check.Avoids, Problem.IsError, Diagnostic.isError,
    Finding.diagnostic]

/-- In a clean analysis no check of an enabled group reports an error. -/
theorem avoids_of_clean {settings : Settings}
    (h : (m.analyze settings).value.hasErrors = false) {subject : Subject}
    (hsubject : subject ∈ m.subjects) {group : CheckGroup} {check : Check Unit}
    (hcheck : (group, check) ∈ m.checksOf settings.policy subject)
    (henabled : settings.enabled group = true) : check.Avoids Problem.IsError := by
  rw [hasErrors_analyze, Model.check, Check.avoids_each] at h
  have hrun := Check.avoids_each.mp (h subject hsubject) _ hcheck
  simpa only [henabled, if_true] using hrun

end DomainModel.Model
