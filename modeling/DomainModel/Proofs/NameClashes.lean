import Mathlib.Data.List.NodupEquivFin
import DomainModel.Proofs.Clean.Names
import DomainModel.Proofs.Distinct
import DomainModel.Proofs.Totality.Rules

/-! # Clashes of names

`m.nameGroups` are the lists within which names have to be distinct, in the order in which they are
gone through: all contexts, all modules that contexts list, all aggregates, all domain objects, and
the invariants of each aggregate for itself. The rule about names reports the clashes of these lists
and nothing else: one finding for each node whose name occurs at another position of its list
(`Model.checkNames_reports_clashes`). The rule counts names in a table; that a count above one means
another position is `occursElsewhere_iff`. -/

namespace DomainModel

/-! ### Positions and counts -/

/-- The name at a position occurs at another position, too. -/
def OccursElsewhere (names : List String) (i : Nat) : Prop :=
  ∃ j < names.length, j ≠ i ∧ names[j]? = names[i]?

instance (names : List String) (i : Nat) : Decidable (OccursElsewhere names i) :=
  inferInstanceAs (Decidable (∃ j < names.length, j ≠ i ∧ names[j]? = names[i]?))

theorem occursElsewhere_iff {names : List String} {i : Nat} {name : String}
    (hi : names[i]? = some name) : OccursElsewhere names i ↔ 1 < names.count name := by
  have htwice : 1 < names.count name ↔ List.Duplicate name names :=
    List.duplicate_iff_two_le_count.symm
  rw [htwice, List.duplicate_iff_exists_distinct_get]
  constructor
  · rintro ⟨j, hj, hne, heq⟩
    rw [hi, List.getElem?_eq_some_iff] at heq
    obtain ⟨hi', hname⟩ := List.getElem?_eq_some_iff.mp hi
    rcases Nat.lt_or_gt_of_ne hne with hlt | hlt
    · exact ⟨⟨j, hj⟩, ⟨i, hi'⟩, hlt, heq.2.symm, hname.symm⟩
    · exact ⟨⟨i, hi'⟩, ⟨j, hj⟩, hlt, hname.symm, heq.2.symm⟩
  · rintro ⟨⟨j, hj⟩, ⟨k, hk⟩, hlt, hnamej, hnamek⟩
    -- One of two positions of the name is not `i`.
    by_cases hji : j = i
    · have hki : k ≠ i := fun hki => Nat.ne_of_lt hlt (hji.trans hki.symm)
      exact ⟨k, hk, hki, by rw [hi, List.getElem?_eq_getElem hk]; exact congrArg some hnamek.symm⟩
    · exact ⟨j, hj, hji, by rw [hi, List.getElem?_eq_getElem hj]; exact congrArg some hnamej.symm⟩

/-! ### Groups of names -/

/-- Nodes of one category whose names have to be distinct. -/
structure NameGroup where
  category : NameCategory
  /-- The nodes in declaration order, each with its name. -/
  named : List (NodeRef × String)

namespace NameGroup

def names (g : NameGroup) : List String := g.named.map (·.2)

/-- **The clashes of a group:** one finding for each node whose name occurs at another position. -/
def clashes (g : NameGroup) : List Finding :=
  (g.named.zipIdx.filter fun p => OccursElsewhere g.names p.2).map fun p =>
    ⟨.nameRepeated g.category p.1.2, p.1.1, .name, none⟩

end NameGroup

theorem flatMap_ite_singleton {α β : Type} (p : α → Prop) [DecidablePred p] (f : α → β)
    (as : List α) : (as.flatMap fun a => if p a then [f a] else []) = (as.filter p).map f := by
  induction as with
  | nil => rfl
  | cons a as ih =>
    rw [List.flatMap_cons, ih, List.filter_cons]
    by_cases h : p a <;> simp [h]

/-- The rule reports the clashes of a group. -/
theorem findings_reportRepeated (g : NameGroup) :
    (reportRepeated g.category g.named).findings = g.clashes := by
  let finding : NodeRef × String → Finding := fun p =>
    ⟨.nameRepeated g.category p.2, p.1, .name, none⟩
  have hreport : ∀ p : NodeRef × String,
      (do
        let count ← (Lookup.entry (nameCounts g.names) p.2 : Lookup Nat)
        if count > 1 then Check.report (.nameRepeated g.category p.2) p.1 .name :
          Check Unit).findings = if 1 < g.names.count p.2 then [finding p] else [] := by
    intro p
    rw [Check.findings_bind, Check.findings_lift, Check.value_lift, List.nil_append,
      entry_nameCounts]
    split <;> rfl
  have hposition : ∀ p ∈ g.named.zipIdx,
      (1 < g.names.count p.1.2) = OccursElsewhere g.names p.2 := by
    intro p hp
    have hname : g.names[p.2]? = some p.1.2 := by
      rw [NameGroup.names, List.getElem?_map, List.mem_zipIdx_iff_getElem?.mp hp]
      rfl
    exact (propext (occursElsewhere_iff hname)).symm
  calc (reportRepeated g.category g.named).findings
      = g.named.flatMap fun p => if 1 < g.names.count p.2 then [finding p] else [] := by
        rw [reportRepeated, Check.findings_each]
        exact List.flatMap_congr fun p _ => hreport p
    _ = g.named.zipIdx.flatMap fun p => if 1 < g.names.count p.1.2 then [finding p.1] else [] := by
        conv_lhs => rw [← List.zipIdx_map_fst 0 g.named, List.flatMap_map]
    _ = g.named.zipIdx.flatMap fun p =>
          if OccursElsewhere g.names p.2 then [finding p.1] else [] := by
        exact List.flatMap_congr fun p hp => by simp only [hposition p hp]
    _ = g.clashes := flatMap_ite_singleton _ (fun p : (NodeRef × String) × Nat => finding p.1) _

theorem NameGroup.clashes_eq_nil_iff (g : NameGroup) : g.clashes = [] ↔ g.names.Nodup := by
  rw [← findings_reportRepeated, Check.findings_eq_nil_iff, avoids_reportRepeated fun _ => trivial]
  rfl

/-! ### What is missed -/

namespace Lookup

variable {α β : Type}

theorem misses_map (f : α → Lookup β) (as : List α) :
    (map f as).misses = as.flatMap fun a => (f a).misses := by
  induction as with
  | nil => rfl
  | cons a as ih => simp [map, ih]

theorem misses_flatMap (f : α → Lookup (List β)) (as : List α) :
    (flatMap f as).misses = as.flatMap fun a => (f a).misses := by
  induction as with
  | nil => rfl
  | cons a as ih => simp [flatMap, ih]

/-- A node is missed exactly if its handle points outside the arena. -/
theorem misses_node_eq_nil_iff [Inhabited α] {arena : Arena} {nodes : List α} {h : Handle arena} :
    (node nodes h).misses = [] ↔ h.index < nodes.length := by
  unfold node
  split
  · next a ha => simpa using (List.getElem?_eq_some_iff.mp ha).1
  · next hnone => simpa using List.getElem?_eq_none_iff.mp hnone

end Lookup

/-! ### Models -/

namespace Model

variable (m : Model)

/-- **The groups of names** in the order in which they are gone through. A module stands at each
context that lists it, an invariant at its position in its aggregate. -/
def nameGroups : List NameGroup :=
  [⟨.context, m.contextIds.map fun c => (.context c, (m.context c).value.name)⟩,
    ⟨.module, m.contextIds.flatMap fun c =>
      (m.context c).value.modules.map fun h => (.context c, (m.module h).value.name)⟩,
    ⟨.aggregate, m.aggregateIds.map fun a => (.aggregate a, (m.aggregate a).value.name)⟩,
    ⟨.object, m.objectIds.map fun o => (.domainObject o, (m.object o).value.name)⟩] ++
  m.aggregateIds.map fun a =>
    ⟨.invariant, (m.aggregate a).value.invariants.zipIdx.map fun (invariant, i) =>
      (.intraInvariant a i, invariant.name)⟩

theorem findings_checkNames : m.checkNames.findings = m.nameGroups.flatMap NameGroup.clashes := by
  have hmodules : m.listedModules.value = m.contextIds.flatMap fun c =>
      (m.context c).value.modules.map fun h => (.context c, (m.module h).value.name) := by
    simp [listedModules]
  simp only [checkNames, nameGroups, Check.findings_bind, Check.findings_lift, Check.value_lift,
    List.nil_append, Check.findings_each, Lookup.value_map, Lookup.value_bind, Lookup.value_pure,
    hmodules, List.flatMap_append, List.flatMap_cons, List.flatMap_nil, List.append_nil,
    List.flatMap_map, ← findings_reportRepeated, namedInvariants, List.append_assoc]

/-- Only a module that a context lists can be missed. -/
theorem misses_checkNames : m.checkNames.misses =
    m.contextIds.flatMap fun c => (m.context c).value.modules.flatMap fun h =>
      (m.module h).misses := by
  have hcontext : ∀ c ∈ m.contextIds, (m.context c).misses = [] := fun c hc =>
    Lookup.misses_node_eq_nil_iff.mpr (holds_of_mem_contextIds hc)
  have hcontexts : (m.contextIds.flatMap fun c => (m.context c).misses) = [] :=
    List.flatMap_eq_nil_iff.mpr hcontext
  have haggregates : (m.aggregateIds.flatMap fun a => (m.aggregate a).misses) = [] :=
    List.flatMap_eq_nil_iff.mpr fun a ha =>
      Lookup.misses_node_eq_nil_iff.mpr (holds_of_mem_aggregateIds ha)
  have hobjects : (m.objectIds.flatMap fun o => (m.object o).misses) = [] :=
    List.flatMap_eq_nil_iff.mpr fun o ho =>
      Lookup.misses_node_eq_nil_iff.mpr (holds_of_mem_objectIds ho)
  have hreport : ∀ category named, (reportRepeated category named).misses = [] :=
    fun category named => (total_reportRepeated category named).misses_eq
  have hmodules : m.listedModules.misses = m.contextIds.flatMap fun c =>
      (m.context c).value.modules.flatMap fun h => (m.module h).misses := by
    rw [listedModules, Lookup.misses_flatMap]
    refine List.flatMap_congr fun c hc => ?_
    rw [Lookup.misses_bind, hcontext c hc, List.nil_append, Lookup.misses_map]
    simp
  simp only [checkNames, Check.misses_bind, Check.misses_lift, Check.misses_each, hreport,
    Lookup.misses_map, Lookup.misses_bind, Lookup.misses_pure, List.append_nil, List.nil_append,
    hcontexts, haggregates, hobjects, hmodules]

/-- Nothing is missed exactly if every module that a context lists exists. -/
theorem misses_checkNames_eq_nil_iff : m.checkNames.misses = [] ↔
    ∀ c ∈ m.contextIds, ∀ h ∈ (m.context c).value.modules, m.Holds h.any := by
  rw [misses_checkNames]
  simp only [List.flatMap_eq_nil_iff]
  exact forall₂_congr fun c _ => forall₂_congr fun h _ => Lookup.misses_node_eq_nil_iff

variable {m}

/-- Where every node has a handle, the groups hold the names of the arenas. -/
theorem names_nameGroups (h : m.Addressed) : m.nameGroups.map NameGroup.names =
    [m.contexts.map (·.name),
      m.contexts.flatMap fun c => c.modules.map fun h => (m.module h).value.name,
      m.aggregates.map (·.name), m.objects.map (·.name)] ++
    m.aggregates.map fun a => a.invariants.map (·.name) := by
  have hcontexts : m.contextIds.map (fun c => (m.context c).value) = m.contexts :=
    map_firsts_node _ (h .context)
  have haggregates : m.aggregateIds.map (fun a => (m.aggregate a).value) = m.aggregates :=
    map_firsts_node _ (h .aggregate)
  have hobjects : m.objectIds.map (fun o => (m.object o).value) = m.objects :=
    map_firsts_node _ (h .object)
  have hinvariants : ∀ is : List Invariant,
      is.zipIdx.map (fun p => p.1.name) = is.map (·.name) := by
    intro is
    conv_rhs => rw [← List.zipIdx_map_fst 0 is, List.map_map]
    rfl
  simp only [nameGroups, List.map_append, List.map_cons, List.map_nil, NameGroup.names, List.map_map,
    List.map_flatMap, Function.comp_def]
  rw [← hcontexts, ← haggregates, ← hobjects]
  simp only [List.map_map, List.flatMap_map, Function.comp_def, hinvariants]

variable (m)

/-- **The rule about names reports exactly the clashes,** group after group: one finding for each
node whose name occurs at another position of its group, in declaration order and on that node. So
it keeps silent exactly if the names of each group are distinct. It has an answer exactly if every
module that a context lists exists. The groups are read off the handles of all nodes; where every
node has a handle, they hold the names of the arenas. -/
theorem checkNames_reports_clashes :
    m.checkNames.findings = m.nameGroups.flatMap NameGroup.clashes ∧
      (m.checkNames.findings = [] ↔ ∀ g ∈ m.nameGroups, g.names.Nodup) ∧
      (m.checkNames.misses = [] ↔
        ∀ c ∈ m.contextIds, ∀ h ∈ (m.context c).value.modules, m.Holds h.any) ∧
      (m.Addressed → m.nameGroups.map NameGroup.names =
        [m.contexts.map (·.name),
          m.contexts.flatMap fun c => c.modules.map fun h => (m.module h).value.name,
          m.aggregates.map (·.name), m.objects.map (·.name)] ++
        m.aggregates.map fun a => a.invariants.map (·.name)) := by
  refine ⟨m.findings_checkNames, ?_, m.misses_checkNames_eq_nil_iff, names_nameGroups⟩
  rw [findings_checkNames, List.flatMap_eq_nil_iff]
  exact forall₂_congr fun g _ => g.clashes_eq_nil_iff

/-- Two contexts of one name, and an invariant name that one aggregate uses once and another one
three times, with an invariant of another name between. -/
def twinSales : Model :=
  { Model.empty with
    contexts := [⟨"Sales", .feature, [⟨0⟩, ⟨1⟩], [], [], [], none⟩,
      ⟨"Sales", .application, [], [], [], [], none⟩]
    aggregates := [⟨"Orders", some ⟨0⟩, [], [⟨"valid", Expr.boolean true⟩]⟩,
      ⟨"Invoices", some ⟨0⟩, [], [⟨"valid", Expr.boolean true⟩, ⟨"paid", Expr.boolean true⟩,
        ⟨"valid", Expr.boolean false⟩, ⟨"valid", Expr.boolean true⟩]⟩] }

theorem checkNames_reports_clashes_twinSales :
    twinSales.Addressed ∧
      twinSales.nameGroups.map NameGroup.names =
        [["Sales", "Sales"], [], ["Orders", "Invoices"], [], ["valid"],
          ["valid", "paid", "valid", "valid"]] ∧
      twinSales.checkNames.findings = twinSales.nameGroups.flatMap NameGroup.clashes ∧
      twinSales.checkNames.findings =
        [⟨.nameRepeated .context "Sales", .context ⟨0⟩, .name, none⟩,
          ⟨.nameRepeated .context "Sales", .context ⟨1⟩, .name, none⟩,
          ⟨.nameRepeated .invariant "valid", .intraInvariant ⟨1⟩ 0, .name, none⟩,
          ⟨.nameRepeated .invariant "valid", .intraInvariant ⟨1⟩ 2, .name, none⟩,
          ⟨.nameRepeated .invariant "valid", .intraInvariant ⟨1⟩ 3, .name, none⟩] := by
  have addressed : twinSales.Addressed := by
    refine addressed_of_size_le fun arena => ?_
    cases arena <;> decide
  obtain ⟨exactly, -, -, names⟩ := checkNames_reports_clashes twinSales
  exact ⟨addressed, (names addressed).trans (by decide), exactly, by decide⟩

end Model

end DomainModel
