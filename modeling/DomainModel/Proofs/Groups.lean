import Mathlib.Data.List.Flatten
import Mathlib.Data.List.Perm.Basic
import DomainModel.Proofs.Places.Analysis

/-! # Groups of checks

Every check of an analysis belongs to one group, and no check sees what another one reports. So
what an analysis reports is what its enabled checks report, one check after the other
(`findings_check`), and skipping groups leaves out the reports of their checks and nothing else
(`analyze_skip`). -/

namespace DomainModel

/-! ### Lists by key -/

/-- The items whose key is in a list without repetition, key by key. -/
theorem perm_flatMap_filter {α κ : Type} [DecidableEq κ] (key : α → κ) (as : List α) {keys : List κ}
    (hkeys : keys.Nodup) :
    (keys.flatMap fun k => as.filter (key · = k)).Perm (as.filter (key · ∈ keys)) := by
  induction keys with
  | nil => simp
  | cons k rest ih =>
    obtain ⟨hk, hrest⟩ := List.nodup_cons.mp hkeys
    have hfirst : (as.filter (key · ∈ k :: rest)).filter (key · = k) = as.filter (key · = k) := by
      rw [List.filter_filter]
      refine List.filter_congr fun a _ => ?_
      by_cases ha : key a = k <;> simp [ha]
    have hothers : (as.filter (key · ∈ k :: rest)).filter (fun a => !decide (key a = k)) =
        as.filter (key · ∈ rest) := by
      rw [List.filter_filter]
      refine List.filter_congr fun a _ => ?_
      by_cases ha : key a = k
      · simp [ha, hk]
      · simp [ha]
    rw [List.flatMap_cons]
    refine ((ih hrest).append_left _).trans ?_
    rw [← hfirst, ← hothers]
    exact List.filter_append_perm _ _

/-! ### Settings -/

theorem CheckGroup.mem_values (group : CheckGroup) :
    group ∈ (Vocabulary.values : List CheckGroup) := by
  cases group <;> decide

theorem CheckGroup.nodup_values : (Vocabulary.values : List CheckGroup).Nodup := by decide

namespace Settings

/-- The groups that are not skipped, in declaration order. -/
def groups (s : Settings) : List CheckGroup :=
  (Vocabulary.values : List CheckGroup).filter s.enabled

/-- The settings with other groups skipped. -/
def skipping (s : Settings) (skip : List CheckGroup) : Settings := { s with skip := skip }

/-- The settings with every group but one skipped. -/
def only (s : Settings) (group : CheckGroup) : Settings :=
  s.skipping ((Vocabulary.values : List CheckGroup).filter (· ≠ group))

theorem mem_groups {s : Settings} {group : CheckGroup} :
    group ∈ s.groups ↔ s.enabled group = true := by
  simp [groups, CheckGroup.mem_values]

theorem enabled_only (s : Settings) (group other : CheckGroup) :
    (s.only group).enabled other = decide (other = group) := by
  by_cases h : other = group <;> simp [only, skipping, enabled, CheckGroup.mem_values, h]

/-- Skipping more groups enables fewer. -/
theorem enabled_of_skipping {s : Settings} {more : List CheckGroup} (h : s.skip ⊆ more)
    {group : CheckGroup} (henabled : (s.skipping more).enabled group = true) :
    s.enabled group = true := by
  simp only [enabled, skipping, Bool.not_eq_true', List.contains_eq_mem, decide_eq_false_iff_not]
    at henabled ⊢
  exact fun hskip => henabled (h hskip)

end Settings

/-! ### Analyses -/

namespace Model

variable (m : Model)

/-- All checks of a model with their groups, in the order in which they run. -/
def checks (policy : TernaryPolicy) : List (CheckGroup × Check Unit) :=
  m.subjects.flatMap (m.checksOf policy)

/-- **An analysis reports what its enabled checks report,** one check after the other. -/
theorem findings_check (settings : Settings) :
    (m.check settings).findings =
      ((m.checks settings.policy).filter (settings.enabled ·.1)).flatMap (·.2.findings) := by
  have hrun : ∀ checks : List (CheckGroup × Check Unit),
      (Check.each (fun c => if settings.enabled c.1 then c.2 else pure ()) checks).findings =
        (checks.filter (settings.enabled ·.1)).flatMap (·.2.findings) := by
    intro checks
    induction checks with
    | nil => rfl
    | cons first rest ih =>
      rw [Check.each, Check.findings_bind, ih]
      cases h : settings.enabled first.1 <;> simp [h]
  rw [check, Check.findings_each, checks, List.filter_flatMap, List.flatMap_assoc]
  exact List.flatMap_congr fun subject _ => hrun _

/-- **Skipping groups removes their diagnostics and no others.** The diagnostics of an analysis that
skips more are among those of one that skips less, in the same order; and the diagnostics of any
analysis are, up to order, those of its groups, each run on its own. -/
theorem analyze_skip (settings : Settings) (more : List CheckGroup) (h : settings.skip ⊆ more) :
    let diagnostics := fun settings => (m.analyze settings).value.diagnostics
    (diagnostics (settings.skipping more)).Sublist (diagnostics settings) ∧
      (diagnostics settings).Perm
        (settings.groups.flatMap fun group => diagnostics (settings.only group)) := by
  intro diagnostics
  have hdiagnostics : ∀ settings, diagnostics settings =
      ((m.checks settings.policy).filter (settings.enabled ·.1)).flatMap
        fun c => c.2.findings.map Finding.diagnostic := by
    intro settings
    change (m.check settings).findings.map Finding.diagnostic = _
    rw [findings_check, List.map_flatMap]
  constructor
  · rw [hdiagnostics, hdiagnostics]
    refine List.Sublist.flatMap ?_ _
    exact List.monotone_filter_right _ fun c hc => Settings.enabled_of_skipping h hc
  · have honly : ∀ group, diagnostics (settings.only group) =
        ((m.checks settings.policy).filter (·.1 = group)).flatMap
          fun c => c.2.findings.map Finding.diagnostic := by
      intro group
      rw [hdiagnostics]
      simp only [Settings.enabled_only]
      rfl
    have henabled : (m.checks settings.policy).filter (·.1 ∈ settings.groups) =
        (m.checks settings.policy).filter (settings.enabled ·.1) :=
      List.filter_congr fun c _ => by simp [Settings.mem_groups]
    simp only [honly]
    rw [← List.flatMap_assoc, hdiagnostics, ← henabled]
    refine List.Perm.flatMap_right _ ?_
    exact (perm_flatMap_filter _ _ (CheckGroup.nodup_values.filter _)).symm

/-- Without the checks of operations, the two faults in the operation are not reported. -/
theorem analyze_skip_draftOrders :
    let diagnostics := fun settings => (draftOrders.analyze settings).value.diagnostics
    Settings.default.skip ⊆ [.operation] ∧
      (diagnostics .default).length = 4 ∧
      (diagnostics (Settings.default.skipping [.operation])).length = 2 ∧
      (diagnostics (Settings.default.skipping [.operation])).Sublist (diagnostics .default) ∧
      (diagnostics .default).Perm (Settings.default.groups.flatMap fun group =>
        diagnostics (Settings.default.only group)) := by
  intro diagnostics
  have fewer : Settings.default.skip ⊆ [.operation] := List.nil_subset _
  exact ⟨fewer, by decide, by decide, draftOrders.analyze_skip .default [.operation] fewer⟩

end Model

end DomainModel
