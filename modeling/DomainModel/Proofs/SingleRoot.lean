import DomainModel.Model.Links
import DomainModel.Proofs.Clean.Basic
import DomainModel.Rules.EntityMapping

/-! # Roots and lifecycles of aggregates

An aggregate with several objects that are flagged as root gets one report for each of them, and one
with several lifecycle enums one for each of those, in the order of its objects; the rules about
mappings report nothing of the kind (`Model.filter_checkAggregate`). The flag may stand on any
object, while all other rules look for the root among the flagged entities
(`Model.value_rootEntity`). The two notions lead to the same reports exactly if there is one flag at
most or only entities are flagged (`Model.checkAggregate_several`); a flag on a value object is
counted along with the roots (`Model.flagged_valueObject_counted`). -/

namespace DomainModel

open Check (avoids_pure avoids_bind avoids_lift_bind avoids_report avoids_reportAt avoids_ite_bind
  avoids_each)

namespace Problem

/-- There is more than one root. -/
def isMultipleRoots : Problem → Bool
  | multipleRoots _ => true
  | _ => false

/-- There is more than one lifecycle enum. -/
def isMultipleLifecycleEnums : Problem → Bool
  | multipleLifecycleEnums _ => true
  | _ => false

/-- There is more than one of what an aggregate has only one of. -/
def IsSeveral : Problem → Prop
  | multipleRoots _ | multipleLifecycleEnums _ => True
  | _ => False

theorem isSeveral_of_isMultipleRoots {p : Problem} (h : p.isMultipleRoots = true) :
    p.IsSeveral := by
  unfold isMultipleRoots at h
  split at h
  · trivial
  · cases h

theorem isSeveral_of_isMultipleLifecycleEnums {p : Problem}
    (h : p.isMultipleLifecycleEnums = true) : p.IsSeveral := by
  unfold isMultipleLifecycleEnums at h
  split at h
  · trivial
  · cases h

end Problem

open Problem (IsSeveral)

/-- One report for each of several objects, and none for a single one. -/
def reportsOfSeveral (problem : Problem) (feature : Feature) (objects : List ObjectId) :
    List Finding :=
  if 1 < objects.length then objects.map fun o => ⟨problem, .domainObject o, feature, none⟩ else []

namespace Model

variable {m : Model}

/-! ### Rules about mappings -/

theorem not_isSeveral_referenceStep {o : ObjectId} {r : ReferenceId} {problem : Problem}
    (h : (m.referenceStep o r).value = .error problem) : ¬problem.IsSeveral := by
  unfold referenceStep at h
  simp only [Lookup.value_bind] at h
  split at h
  · cases h
    exact not_false
  · split at h
    · cases h
      exact not_false
    · split at h
      · cases h
        exact not_false
      · rw [Lookup.value_bind] at h
        split at h
        · cases h
        · cases h
          exact not_false

theorem avoids_several_walkReferences (node : NodeRef) (index : Nat) (o : ObjectId)
    (references : List ReferenceId) :
    (m.walkReferences node index o references).Avoids IsSeveral := by
  induction references generalizing index o with
  | nil => exact avoids_pure
  | cons r rest ih =>
    rw [walkReferences, avoids_lift_bind]
    cases hstep : (m.referenceStep o r).value with
    | ok target => exact ih (index + 1) target
    | error problem =>
      refine avoids_bind.mpr ⟨?_, ih (index + 1) o⟩
      exact avoids_reportAt.mpr (not_isSeveral_referenceStep hstep)

theorem avoids_several_checkAliases (entity mapped : ObjectId) (index : Nat) (known : Aliases)
    (declarations : List AliasDeclaration) :
    (m.checkAliases entity mapped index known declarations).Avoids IsSeveral := by
  induction declarations generalizing index known with
  | nil => exact avoids_pure
  | cons declaration rest ih =>
    refine avoids_ite_bind.mpr ⟨fun _ => avoids_report.mpr not_false, avoids_bind.mpr ⟨?_, ih _ _⟩⟩
    exact avoids_several_walkReferences _ 0 mapped declaration.references

theorem avoids_several_checkAttributePath (node : NodeRef) (mapped : ObjectId) (aliases : Aliases)
    (mapping : EntityAttributeMapping) :
    (m.checkAttributePath node mapped aliases mapping).Avoids IsSeveral := by
  unfold checkAttributePath
  split
  · split
    · simp [IsSeveral]
    · simp
  · refine avoids_bind.mpr ⟨avoids_several_walkReferences _ 0 _ _, avoids_lift_bind.mpr ?_⟩
    split
    · simp [avoids_lift_bind, IsSeveral]
    · rw [avoids_lift_bind, avoids_ite_bind]
      simp [IsSeveral]

theorem avoids_several_checkAttributeMappings (entity mapped : ObjectId) (aliases : Aliases)
    (index : Nat) (names : List String) (mappings : List EntityAttributeMapping) :
    (m.checkAttributeMappings entity mapped aliases index names mappings).Avoids IsSeveral := by
  induction mappings generalizing index names with
  | nil => exact avoids_pure
  | cons mapping rest ih =>
    refine avoids_ite_bind.mpr ⟨fun _ => avoids_report.mpr not_false, ?_⟩
    refine avoids_bind.mpr ⟨avoids_several_checkAttributePath _ mapped aliases mapping, ?_⟩
    exact avoids_bind.mpr ⟨ih _ _, avoids_pure⟩

theorem avoids_several_checkEntityMapping (entity : ObjectId) (mapping : EntityMapping) :
    (m.checkEntityMapping entity mapping).Avoids IsSeveral := by
  rw [checkEntityMapping, avoids_lift_bind, avoids_ite_bind]
  refine ⟨fun _ => avoids_report.mpr not_false, ?_⟩
  split
  · exact avoids_report.mpr not_false
  · next mapped _ =>
    have hroot : (m.checkMappedRoot entity mapped).Avoids IsSeveral := by
      rw [checkMappedRoot, avoids_lift_bind, avoids_ite_bind]
      refine ⟨fun _ => avoids_report.mpr not_false, ?_⟩
      rw [avoids_lift_bind, avoids_ite_bind]
      exact ⟨fun _ => avoids_report.mpr not_false, avoids_pure⟩
    refine avoids_bind.mpr ⟨hroot, avoids_bind.mpr ⟨?_, ?_⟩⟩
    · exact avoids_several_checkAliases entity mapped 0 [] mapping.aliases
    · refine avoids_bind.mpr ⟨?_, ?_⟩
      · exact avoids_several_checkAttributeMappings entity mapped _ 0 [] mapping.attributes
      · split
        · split
          · simp [avoids_lift_bind, IsSeveral]
          · exact avoids_pure
        · exact avoids_pure

/-! ### Reports of several objects -/

theorem findings_reportIfSeveral (problem : Problem) (feature : Feature)
    (objects : List ObjectId) :
    (reportIfSeveral problem feature objects).findings =
      reportsOfSeveral problem feature objects := by
  unfold reportIfSeveral reportsOfSeveral
  split
  · rw [Check.findings_each]
    exact List.map_eq_flatMap.symm
  · rfl

theorem filter_reportsOfSeveral (p : Problem → Bool) (problem : Problem) (feature : Feature)
    (objects : List ObjectId) :
    (reportsOfSeveral problem feature objects).filter (fun f => p f.problem) =
      if p problem then reportsOfSeveral problem feature objects else [] := by
  unfold reportsOfSeveral
  cases h : p problem <;> split <;> simp [h]

variable (m) in
/-- The objects of an aggregate that are flagged as its root, be they entities or not. -/
def flaggedObjects (a : AggregateId) : List ObjectId :=
  (m.aggregate a).value.objects.filter fun o => (m.object o).value.aggregateRoot

variable (m) in
/-- The root entities of an aggregate. -/
def rootEntities (a : AggregateId) : List ObjectId :=
  (m.aggregate a).value.objects.filter fun o => (m.object o).value.isRootEntity

variable (m) in
/-- The enums of an aggregate that declare its states. -/
def lifecycleEnums (a : AggregateId) : List ObjectId :=
  (m.aggregate a).value.objects.filter fun o => (m.object o).value.kind.isLifecycleEnum

theorem rootEntities_eq_filter (a : AggregateId) :
    m.rootEntities a = (m.flaggedObjects a).filter fun o => (m.object o).value.isEntity := by
  simp [rootEntities, flaggedObjects, List.filter_filter, DomainObject.isRootEntity, Bool.and_comm]

theorem findings_checkSingleRoot (a : AggregateId) :
    (m.checkSingleRoot (m.aggregate a).value).findings =
      reportsOfSeveral (.multipleRoots (m.aggregate a).value.name) .aggregateRoot
        (m.flaggedObjects a) := by
  rw [checkSingleRoot, Check.findings_bind, findings_reportIfSeveral, Check.value_lift,
    Lookup.value_filter]
  rfl

theorem findings_checkSingleLifecycle (a : AggregateId) :
    (m.checkSingleLifecycle (m.aggregate a).value).findings =
      reportsOfSeveral (.multipleLifecycleEnums (m.aggregate a).value.name)
        .definesAggregateLifecycle (m.lifecycleEnums a) := by
  rw [checkSingleLifecycle, Check.findings_bind, findings_reportIfSeveral, Check.value_lift,
    Lookup.value_filter]
  rfl

/-- The reports of an aggregate: about several roots, about several enums, and then others about the
mappings of its entities. -/
theorem findings_checkAggregate (a : AggregateId) :
    ∃ others : List Finding, (∀ f ∈ others, ¬f.problem.IsSeveral) ∧
      (m.checkAggregate a).findings =
        reportsOfSeveral (.multipleRoots (m.aggregate a).value.name) .aggregateRoot
            (m.flaggedObjects a) ++
          (reportsOfSeveral (.multipleLifecycleEnums (m.aggregate a).value.name)
              .definesAggregateLifecycle (m.lifecycleEnums a) ++ others) := by
  rw [checkAggregate, Check.findings_bind, Check.findings_lift, List.nil_append,
    Check.findings_bind, Check.findings_bind, Check.value_lift, findings_checkSingleRoot,
    findings_checkSingleLifecycle]
  refine ⟨_, ?_, rfl⟩
  refine avoids_each.mpr fun o _ => avoids_lift_bind.mpr ?_
  split
  · exact avoids_pure
  · exact avoids_several_checkEntityMapping o _

/-- What an aggregate reports of a kind that only its own rules report. -/
theorem filter_checkAggregate (a : AggregateId) {p : Problem → Bool}
    (hp : ∀ problem, p problem = true → problem.IsSeveral) :
    let several := reportsOfSeveral (.multipleRoots (m.aggregate a).value.name) .aggregateRoot
      (m.flaggedObjects a)
    let enums := reportsOfSeveral (.multipleLifecycleEnums (m.aggregate a).value.name)
      .definesAggregateLifecycle (m.lifecycleEnums a)
    (m.checkAggregate a).findings.filter (fun f => p f.problem) =
      (if p (.multipleRoots (m.aggregate a).value.name) then several else []) ++
        if p (.multipleLifecycleEnums (m.aggregate a).value.name) then enums else [] := by
  intro several enums
  obtain ⟨others, hothers, hfindings⟩ := m.findings_checkAggregate a
  have hnone : others.filter (fun f => p f.problem) = [] :=
    List.filter_eq_nil_iff.mpr fun f hf h => hothers f hf (hp f.problem h)
  rw [hfindings, List.filter_append, List.filter_append, filter_reportsOfSeveral,
    filter_reportsOfSeveral, hnone, List.append_nil]

theorem value_rootEntity (a : AggregateId) :
    (m.rootEntity a).value = (m.rootEntities a).head? := by
  simp [rootEntity, rootEntities]

/-- Counting the flags or the entities among them makes no difference if there is one flag at most
or if all flagged objects are entities, and only then. -/
theorem reports_flaggedObjects_iff (a : AggregateId) (problem : Problem) (feature : Feature) :
    reportsOfSeveral problem feature (m.flaggedObjects a) =
        reportsOfSeveral problem feature (m.rootEntities a) ↔
      (m.flaggedObjects a).length ≤ 1 ∨
        ∀ o ∈ m.flaggedObjects a, (m.object o).value.isEntity = true := by
  rw [rootEntities_eq_filter]
  have hle := List.length_filter_le (fun o => (m.object o).value.isEntity) (m.flaggedObjects a)
  by_cases hone : (m.flaggedObjects a).length ≤ 1
  · have hnone : ∀ objects : List ObjectId, objects.length ≤ 1 →
        reportsOfSeveral problem feature objects = [] := fun objects h => if_neg (by omega)
    rw [hnone _ hone, hnone _ (by omega)]
    exact ⟨fun _ => .inl hone, fun _ => rfl⟩
  · rw [or_iff_right hone]
    constructor
    · intro heq
      -- the flags are reported, so the entities are too, and there are as many
      have hlength := congrArg List.length heq
      unfold reportsOfSeveral at hlength
      rw [if_pos (by omega), List.length_map] at hlength
      split at hlength
      · rw [List.length_map] at hlength
        exact List.length_filter_eq_length_iff.mp hlength.symm
      · rw [List.length_nil] at hlength
        omega
    · intro hall
      rw [List.filter_eq_self.mpr hall]

/-- **The reports about several roots and several lifecycle enums.** An aggregate reports several
roots for each of its objects that are flagged, if there are several, and several lifecycle enums
for each of those, both in the order of its objects. The root entity is the first of the flagged
entities. So the reports are about the root entities, each of them if there are several and none for
a single one, exactly if there is one flag at most or only entities are flagged. -/
theorem checkAggregate_several (m : Model) (a : AggregateId) :
    let found := (m.checkAggregate a).findings
    let name := (m.aggregate a).value.name
    found.filter (·.problem.isMultipleRoots) =
        reportsOfSeveral (.multipleRoots name) .aggregateRoot (m.flaggedObjects a) ∧
      found.filter (·.problem.isMultipleLifecycleEnums) =
        reportsOfSeveral (.multipleLifecycleEnums name) .definesAggregateLifecycle
          (m.lifecycleEnums a) ∧
      (m.rootEntity a).value = (m.rootEntities a).head? ∧
      (found.filter (·.problem.isMultipleRoots) =
          reportsOfSeveral (.multipleRoots name) .aggregateRoot (m.rootEntities a) ↔
        (m.flaggedObjects a).length ≤ 1 ∨
          ∀ o ∈ m.flaggedObjects a, (m.object o).value.isEntity = true) := by
  intro found name
  have hroots : found.filter (·.problem.isMultipleRoots) =
      reportsOfSeveral (.multipleRoots name) .aggregateRoot (m.flaggedObjects a) :=
    (filter_checkAggregate a fun _ => Problem.isSeveral_of_isMultipleRoots).trans
      (List.append_nil _)
  refine ⟨hroots, ?_, value_rootEntity a, ?_⟩
  · exact filter_checkAggregate a fun _ => Problem.isSeveral_of_isMultipleLifecycleEnums
  · rw [hroots]
    exact reports_flaggedObjects_iff a _ _

/-- An order is the root of its aggregate. Its address is a value object, and flagged as well. -/
def flaggedAddress : Model :=
  { Model.empty with
    aggregates := [⟨"Orders", none, [⟨0⟩, ⟨1⟩], []⟩]
    objects := [⟨"Order", ⟨0⟩, .entity ⟨none, none⟩, true, [], [], none, none, []⟩,
      ⟨"Address", ⟨0⟩, .valueObject, true, [], [], none, none, []⟩] }

/-- **A flagged value object is counted along with the roots,** although it is none. -/
theorem flagged_valueObject_counted :
    let m := flaggedAddress
    m.Linked ∧ m.rootEntities ⟨0⟩ = [⟨0⟩] ∧ (m.object ⟨1⟩).value.isRootEntity = false ∧
      (m.checkAggregate ⟨0⟩).findings =
        [⟨.multipleRoots "Orders", .domainObject ⟨0⟩, .aggregateRoot, none⟩,
          ⟨.multipleRoots "Orders", .domainObject ⟨1⟩, .aggregateRoot, none⟩] := by
  decide

end Model

end DomainModel
