import DomainModel.Analysis
import DomainModel.Proofs.Clean.AntiCorruption

/-! # The key behind a uses binding

An entity that uses a value object through an anti-corruption declaration has to use the translation
of the key, too. Two rules look for that translation. The rule about declarations goes by name: the
translation is of the root entity, and the name of its link finds the root's key. The rule about
entities goes by the link alone: the first translation that is linked to the key attribute.

If nothing is reported about the declaration and the entity, the entity uses the translation that is
linked to the key (`keyTranslation_used_of_clean`), and this one stands for the key exactly if it is
of the root entity. Where the key is found by name only, no translation is linked to it and the
entity need not use any (`key_unused_of_clean`). -/

namespace DomainModel.Model

open Check

variable {m : Model}

/-! ### The declaration -/

/-- In a clean declaration all translations stand for something, and one of them for the key. -/
theorem key_standsFor_of_clean {id : AntiCorruptionId}
    (h : (m.checkAntiCorruption id).findings = []) :
    ∃ a root key, (m.antiCorruption id).value.aggregate = some a ∧
      (m.rootKey a).value = some (root, key) ∧
      (∀ t ∈ (m.antiCorruption id).value.attributes, ∃ entity own, m.StandsFor a t entity own) ∧
      ∃ t ∈ (m.antiCorruption id).value.attributes, m.StandsFor a t root key := by
  rw [findings_eq_nil_iff, checkAntiCorruption, avoids_lift_bind, avoids_bind] at h
  cases ha : (m.antiCorruption id).value.aggregate with
  | none => simp [ha] at h
  | some a =>
    simp only [ha, avoids_bind, avoids_lift, value_lift, true_and, avoids_ite_lift_bind,
      avoids_report, not_true, imp_false, Bool.not_eq_true', Bool.not_eq_false] at h
    obtain ⟨-, htranslations, hcovered, -⟩ := h
    obtain ⟨hall, hcollected⟩ := standsFor_of_checkTranslations htranslations
    obtain ⟨⟨root, key⟩, hmem, hkey⟩ := List.any_eq_true.mp hcovered
    exact ⟨a, root, key, rfl, (eq_of_beq hkey).symm, hall, hcollected _ hmem⟩

/-- A translation that is linked to the key stands for the key exactly if it is of the root, once
the name of the key finds the key. -/
theorem standsFor_key_iff {a : AggregateId} {t covering : AttributeTranslation}
    {root entity : ObjectId} {key own : AttributeId} (hlinked : t.entityAttribute = some key)
    (ht : m.StandsFor a t entity own) (hcovering : m.StandsFor a covering root key) :
    m.StandsFor a t root key ↔ t.entity = some root := by
  refine ⟨fun h => h.entity_eq, fun h => ?_⟩
  obtain rfl : entity = root := Option.some.inj (ht.entity_eq.symm.trans h)
  obtain ⟨linked, -, hcover⟩ := hcovering.found
  obtain ⟨linked', hlinked', hown⟩ := ht.found
  obtain rfl : linked' = key := Option.some.inj (hlinked'.symm.trans hlinked)
  rw [(m.attributeByName_some hcover).2, hcover] at hown
  obtain rfl : linked' = own := Option.some.inj hown
  exact ht

/-! ### The entity -/

theorem mem_usesClauses {o : ObjectId} {b : AttributeId} {clause : AttributeUses} :
    (b, clause) ∈ (m.usesClauses o).value ↔
      b ∈ (m.object o).value.attributes ∧ (m.attributeOf b).value.uses = some clause := by
  simp [usesClauses, List.mem_filterMap]

variable (m) in
/-- Some attribute of the object has a uses clause that names the given one. -/
def UsesName (o : ObjectId) (name : String) : Prop :=
  ∃ b ∈ (m.object o).value.attributes, ∃ clause,
    (m.attributeOf b).value.uses = some clause ∧ clause.attributeName = name

theorem mem_usedNames {o : ObjectId} {name : String} :
    name ∈ (m.usesClauses o).value.map (·.2.attributeName) ↔ m.UsesName o name := by
  simp only [UsesName, List.mem_map, Prod.exists, mem_usesClauses, and_assoc, exists_and_left]

theorem value_keyTranslation {id : AntiCorruptionId} {a : AggregateId} {root : ObjectId}
    {key : AttributeId} (ha : (m.antiCorruption id).value.aggregate = some a)
    (hkey : (m.rootKey a).value = some (root, key)) :
    (m.keyTranslation id).value =
      ((m.antiCorruption id).value.attributes.find? (·.entityAttribute == some key)).map
        (·.name) := by
  obtain ⟨hroot, hkey⟩ := m.rootKey_eq_some.mp hkey
  simp [keyTranslation, ha, hroot, hkey]

/-- The uses clauses of a clean entity are in order, for the target that its binding leads to. -/
theorem avoids_checkUsesClauses_of_clean {entity : ObjectId} {uses : EntityUses}
    (huses : (m.object entity).value.uses? = some uses) (h : (m.checkEntity entity).findings = []) :
    (m.checkUsesClauses entity uses.binder (usesTarget uses
      (m.namedAntiCorruption entity uses (m.contextOfObject entity).value).value)).Avoids
        fun _ => True := by
  obtain ⟨data, hdata, hdatauses⟩ := Option.bind_eq_some_iff.mp huses
  rw [findings_eq_nil_iff, checkEntity, avoids_lift_bind, hdata] at h
  simp only [hdatauses, checkUsesBinding, avoids_bind, avoids_lift, value_lift, true_and,
    avoids_ite_bind] at h
  exact h.2.2.2.2.2

/-- The binding leads to the declaration that it names, if the context of the entity has it. -/
theorem usesTarget_named {entity : ObjectId} {uses : EntityUses} {name : String}
    {owner : ContextId} {id : AntiCorruptionId} (hname : uses.antiCorruption = some name)
    (howner : (m.contextOfObject entity).value = some owner)
    (hfound : (m.antiCorruptionInContext owner name).value = some id) :
    usesTarget uses (m.namedAntiCorruption entity uses (m.contextOfObject entity).value).value =
      some (.antiCorruption id) := by
  simp [namedAntiCorruption, hname, howner, hfound, usesTarget]

/-- In clean uses clauses the translation of the key is used. -/
theorem keyTranslation_mem_of_checkUsesClauses {entity : ObjectId} {binder : String}
    {id : AntiCorruptionId}
    (h : (m.checkUsesClauses entity binder (some (.antiCorruption id))).Avoids fun _ => True)
    {used : String} (hused : (m.keyTranslation id).value = some used) :
    m.UsesName entity used := by
  simp only [checkUsesClauses, avoids_bind, avoids_lift, value_lift, true_and, checkKeyTranslation,
    hused, avoids_ite, avoids_report, not_true, imp_false] at h
  exact mem_usedNames.mp (by simpa using h.2)

/-! ### Both rules -/

/-- **A clean entity uses the translation that a clean declaration links to the key.** It stands for
the key exactly if it is of the root entity. -/
theorem keyTranslation_used_of_clean (m : Model) {entity : ObjectId} {uses : EntityUses}
    {name : String} {owner : ContextId} {id : AntiCorruptionId}
    (huses : (m.object entity).value.uses? = some uses) (hname : uses.antiCorruption = some name)
    (howner : (m.contextOfObject entity).value = some owner)
    (hfound : (m.antiCorruptionInContext owner name).value = some id)
    (hdeclaration : (m.checkAntiCorruption id).findings = [])
    (hentity : (m.checkEntity entity).findings = []) :
    ∃ a root key, (m.antiCorruption id).value.aggregate = some a ∧
      (m.rootKey a).value = some (root, key) ∧
      ∀ t, (m.antiCorruption id).value.attributes.find? (·.entityAttribute == some key) = some t →
        (∃ b ∈ (m.object entity).value.attributes, ∃ clause,
          (m.attributeOf b).value.uses = some clause ∧ clause.attributeName = t.name) ∧
        (m.StandsFor a t root key ↔ t.entity = some root) := by
  obtain ⟨a, root, key, ha, hkey, hall, covering, -, hcovering⟩ :=
    key_standsFor_of_clean hdeclaration
  refine ⟨a, root, key, ha, hkey, fun t ht => ⟨?_, ?_⟩⟩
  · have hclauses := avoids_checkUsesClauses_of_clean huses hentity
    rw [usesTarget_named hname howner hfound] at hclauses
    refine keyTranslation_mem_of_checkUsesClauses hclauses ?_
    rw [value_keyTranslation ha hkey, ht]
    rfl
  · obtain ⟨e, own, hstands⟩ := hall t (List.mem_of_find?_eq_some ht)
    have hlinked : t.entityAttribute = some key := by simpa using List.find?_some ht
    exact standsFor_key_iff hlinked hstands hcovering

/-- Sales translates the clients of CRM by a link to the attribute `linked`: the client's key, or a
partner's attribute of the same name. Its customers use an address of CRM through this declaration,
and their only attribute has the uses clause given as `clause`. -/
def boundCustomers (linked : AttributeId) (clause : Option AttributeUses) : Model :=
  { Model.empty with
    contexts := [⟨"CRM", .feature, [⟨0⟩], [], [], [], none⟩,
      ⟨"Sales", .feature, [⟨1⟩], [], [⟨0⟩], [], none⟩]
    aggregates := [⟨"Clients", some ⟨0⟩, [⟨0⟩, ⟨1⟩, ⟨2⟩], []⟩, ⟨"Customers", some ⟨1⟩, [⟨3⟩], []⟩]
    objects := [⟨"Client", ⟨0⟩, .entity ⟨none, none⟩, true, [⟨0⟩], [], none, none, []⟩,
      ⟨"Partner", ⟨0⟩, .entity ⟨none, none⟩, false, [⟨1⟩], [], none, none, []⟩,
      ⟨"Address", ⟨0⟩, .valueObject, false, [⟨2⟩], [],
        some ⟨[⟨"client", ⟨.none, .domainObject (some ⟨0⟩)⟩⟩],
          [⟨"owner", ⟨⟨0⟩, .path (.variable "client") ["clientId"] []⟩⟩]⟩, none, []⟩,
      ⟨"Customer", ⟨1⟩,
        .entity ⟨none, some ⟨some ⟨0⟩, some ⟨0⟩, some ⟨2⟩, some "ClientAcl", "address"⟩⟩, false,
        [⟨3⟩], [], none, none, []⟩]
    attributes := [⟨"clientId", "String", ⟨0⟩, true, none⟩,
      ⟨"clientId", "Integer", ⟨1⟩, false, none⟩, ⟨"owner", "String", ⟨2⟩, false, none⟩,
      ⟨"client", "String", ⟨3⟩, false, clause⟩]
    antiCorruptions := [⟨"ClientAcl", .translation, ⟨1⟩, some ⟨0⟩, some ⟨0⟩,
      [⟨"client", "String", some ⟨0⟩, some linked, none⟩], []⟩]
    contextMaps := [⟨"Landscape", none, [⟨0⟩, ⟨1⟩], [⟨0⟩]⟩]
    relationships := [.upstreamDownstream ⟨false, some ⟨0⟩, some ⟨1⟩, [], [], []⟩] }

theorem keyTranslation_used_of_clean_customers :
    let m := boundCustomers ⟨0⟩ (some ⟨"address", "client"⟩)
    (m.checkAntiCorruption ⟨0⟩).findings = [] ∧ (m.checkEntity ⟨3⟩).findings = [] ∧
      ∃ a root key, (m.antiCorruption ⟨0⟩).value.aggregate = some a ∧
        (m.rootKey a).value = some (root, key) ∧
        ∀ t, (m.antiCorruption ⟨0⟩).value.attributes.find? (·.entityAttribute == some key) =
            some t →
          (∃ b ∈ (m.object ⟨3⟩).value.attributes, ∃ clause,
            (m.attributeOf b).value.uses = some clause ∧ clause.attributeName = t.name) ∧
          (m.StandsFor a t root key ↔ t.entity = some root) := by
  intro m
  have hdeclaration : (m.checkAntiCorruption ⟨0⟩).findings = [] := by decide
  have hentity : (m.checkEntity ⟨3⟩).findings = [] := by decide
  have howner : (m.contextOfObject ⟨3⟩).value = some ⟨1⟩ := by decide
  exact ⟨hdeclaration, hentity,
    m.keyTranslation_used_of_clean rfl rfl howner rfl hdeclaration hentity⟩

/-- **The key may remain unused** where the link of its translation is foreign: a name finds the key
for the rule about declarations, and the rule about entities misses it. -/
theorem key_unused_of_clean :
    let m := boundCustomers ⟨1⟩ none
    m.InRange ∧ (m.analyze .default).value.hasErrors = false ∧
      (m.antiCorruptionInContext ⟨1⟩ "ClientAcl").value = some ⟨0⟩ ∧
      (m.checkAntiCorruption ⟨0⟩).findings = [] ∧ (m.checkEntity ⟨3⟩).findings = [] ∧
      ∀ b ∈ (m.object ⟨3⟩).value.attributes, (m.attributeOf b).value.uses = none :=
  ⟨linked_iff_inRange.mp (by decide), by decide, by decide, by decide, by decide, by decide⟩

end DomainModel.Model
