import DomainModel.Proofs.Clean.Basic
import DomainModel.Proofs.Clean.Navigation
import DomainModel.Proofs.Totality.Links
import DomainModel.Rules.AntiCorruption

/-! # Clean anti-corruption declarations

A declaration about which nothing is reported translates into the aggregate it maps
(`translatesInto_of_clean`): its attributes have distinct names, each of them stands for an
attribute of an entity of the mapped aggregate and has the type of that attribute, and one of them
stands for the key of the aggregate's root.

A translation stands for the attribute that the name of its link finds on its entity. The link
itself may be an attribute of another entity with the same name. -/

namespace DomainModel.Model

variable (m : Model)

/-- The translation stands for the attribute `own` of the entity of the aggregate: the first of the
entity's own attributes with the name of the linked one. -/
structure StandsFor (a : AggregateId) (t : AttributeTranslation) (entity : ObjectId)
    (own : AttributeId) : Prop where
  entity_eq : t.entity = some entity
  listed : entity ∈ (m.aggregate a).value.objects
  isEntity : (m.object entity).value.isEntity = true
  owned : own ∈ (m.object entity).value.attributes
  found : ∃ linked, t.entityAttribute = some linked ∧
    (m.attributeByName entity (m.attributeOf linked).value.name).value = some own
  type_eq : t.type = (m.attributeOf own).value.type

variable {m}

/-- If the entity owns the linked attribute and names its attributes apart, the translation stands
for the linked attribute. -/
theorem StandsFor.eq_linked {a : AggregateId} {t : AttributeTranslation} {entity : ObjectId}
    {own linked : AttributeId} (h : m.StandsFor a t entity own)
    (hlinked : t.entityAttribute = some linked) (howned : linked ∈ (m.object entity).value.attributes)
    (hnames : (m.attributeNames entity).Nodup) : own = linked := by
  obtain ⟨linked', hlinked', hown⟩ := h.found
  obtain rfl : linked' = linked := Option.some.inj (hlinked'.symm.trans hlinked)
  exact m.attributeByName_name hnames howned hown

/-! ### Translations -/

section

variable {id : AntiCorruptionId} {kind : AntiCorruptionKind} {a : AggregateId}

theorem listed_of_checkTranslatedEntity {node : NodeRef} {entity : ObjectId}
    (h : (m.checkTranslatedEntity node a entity).Avoids fun _ => True) :
    entity ∈ (m.aggregate a).value.objects ∧ (m.object entity).value.isEntity = true := by
  simpa only [checkTranslatedEntity, Check.avoids_lift_bind, Check.avoids_ite, Check.avoids_report,
    not_true, imp_false, Bool.not_eq_true', Bool.not_eq_false, listsEntity_iff] using h

/-- A clean translation stands for what the check collects. -/
theorem standsFor_of_checkTranslation {node : NodeRef} {t : AttributeTranslation}
    (h : (m.checkTranslation kind node a t).Avoids fun _ => True) :
    ∃ p, (m.checkTranslation kind node a t).value = some p ∧ m.StandsFor a t p.1 p.2 := by
  unfold checkTranslation at h ⊢
  cases hentity : t.entity with
  | none => simp [hentity] at h
  | some entity =>
    cases hlinked : t.entityAttribute with
    | none => simp [hentity, hlinked] at h
    | some linked =>
      simp only [hentity, hlinked, Check.avoids_bind, Check.avoids_lift, Check.value_lift,
        true_and] at h
      obtain ⟨hlists, h⟩ := h
      obtain ⟨hlisted, hkind⟩ := listed_of_checkTranslatedEntity hlists
      cases hown : (m.attributeByName entity (m.attributeOf linked).value.name).value with
      | none => simp [hown] at h
      | some own =>
        simp only [hown, Check.avoids_lift_bind, Check.avoids_ite_bind, Check.avoids_report,
          Check.avoids_pure, not_true, imp_false, bne_iff_ne, not_not, and_true] at h
        refine ⟨(entity, own), ?_, hentity, hlisted, hkind, (m.attributeByName_some hown).1,
          ⟨linked, hlinked, hown⟩, h.symm⟩
        simp [hown, h]

theorem avoids_checkTranslations_cons {index : Nat} {names : List String} {t : AttributeTranslation}
    {ts : List AttributeTranslation} :
    (m.checkTranslations id kind a index names (t :: ts)).Avoids (fun _ => True) ↔
      t.name ∉ names ∧
      (m.checkTranslation kind (.attributeTranslation id index) a t).Avoids (fun _ => True) ∧
      (m.checkTranslations id kind a (index + 1) (t.name :: names) ts).Avoids fun _ => True := by
  simp only [checkTranslations, Check.avoids_ite_bind, Check.avoids_bind, Check.avoids_report,
    Check.avoids_pure, not_true, imp_false, and_true, List.contains_iff_mem]

theorem value_checkTranslations_cons (index : Nat) (names : List String) (t : AttributeTranslation)
    (ts : List AttributeTranslation) :
    (m.checkTranslations id kind a index names (t :: ts)).value =
      (m.checkTranslation kind (.attributeTranslation id index) a t).value.toList ++
        (m.checkTranslations id kind a (index + 1) (t.name :: names) ts).value := by
  rw [checkTranslations]
  split <;> rfl

/-- In clean translations no name is used twice, and none that was there before. -/
theorem nodup_of_checkTranslations {index : Nat} {names : List String}
    {ts : List AttributeTranslation}
    (h : (m.checkTranslations id kind a index names ts).Avoids fun _ => True) :
    (ts.map (·.name)).Nodup ∧ ∀ name ∈ ts.map (·.name), name ∉ names := by
  induction ts generalizing index names with
  | nil => simp
  | cons t ts ih =>
    obtain ⟨hname, -, hrest⟩ := avoids_checkTranslations_cons.mp h
    rw [List.map_cons, nodup_unseen_cons]
    exact ⟨hname, ih hrest⟩

/-- Clean translations all stand for something, and the check collects only what they stand for. -/
theorem standsFor_of_checkTranslations {index : Nat} {names : List String}
    {ts : List AttributeTranslation}
    (h : (m.checkTranslations id kind a index names ts).Avoids fun _ => True) :
    (∀ t ∈ ts, ∃ entity own, m.StandsFor a t entity own) ∧
      ∀ p ∈ (m.checkTranslations id kind a index names ts).value,
        ∃ t ∈ ts, m.StandsFor a t p.1 p.2 := by
  induction ts generalizing index names with
  | nil => simp [checkTranslations]
  | cons t ts ih =>
    obtain ⟨-, ht, hrest⟩ := avoids_checkTranslations_cons.mp h
    obtain ⟨p, hp, hstands⟩ := standsFor_of_checkTranslation ht
    obtain ⟨hall, hcollected⟩ := ih hrest
    constructor
    · intro u hu
      rcases List.mem_cons.mp hu with rfl | hu
      · exact ⟨p.1, p.2, hstands⟩
      · exact hall u hu
    · intro q hq
      rw [value_checkTranslations_cons, hp] at hq
      rcases List.mem_append.mp hq with hq | hq
      · obtain rfl : q = p := by simpa using hq
        exact ⟨t, by simp, hstands⟩
      · obtain ⟨u, hu, hstands⟩ := hcollected q hq
        exact ⟨u, by simp [hu], hstands⟩

end

/-! ### Declarations -/

variable (m) in
/-- The translated attributes of a declaration reach into the aggregate it maps. -/
structure TranslatesInto (ac : AntiCorruption) (a : AggregateId) : Prop where
  aggregate_eq : ac.aggregate = some a
  nodup : (ac.attributes.map (·.name)).Nodup
  standsFor : ∀ t ∈ ac.attributes, ∃ entity own, m.StandsFor a t entity own
  key : ∃ root key, (m.rootEntity a).value = some root ∧ (m.keyAttribute root).value = some key ∧
    ∃ t ∈ ac.attributes, m.StandsFor a t root key

/-- **A clean anti-corruption declaration translates into the aggregate it maps.** A link to one of
the entity's own attributes is what the translation stands for, if the entity names its attributes
apart. -/
theorem translatesInto_of_clean (m : Model) (id : AntiCorruptionId)
    (h : (m.checkAntiCorruption id).findings = []) :
    ∃ a, m.TranslatesInto (m.antiCorruption id).value a ∧
      ∀ t ∈ (m.antiCorruption id).value.attributes, ∀ entity own linked,
        m.StandsFor a t entity own → t.entityAttribute = some linked →
        linked ∈ (m.object entity).value.attributes → (m.attributeNames entity).Nodup →
        own = linked := by
  rw [Check.findings_eq_nil_iff, checkAntiCorruption, Check.avoids_lift_bind,
    Check.avoids_bind] at h
  obtain ⟨-, h⟩ := h
  cases ha : (m.antiCorruption id).value.aggregate with
  | none => simp [ha] at h
  | some a =>
    simp only [ha, Check.avoids_bind, Check.avoids_lift, Check.value_lift,
      Check.avoids_ite_lift_bind, Check.avoids_report, true_and, not_true, imp_false,
      Bool.not_eq_true', Bool.not_eq_false] at h
    obtain ⟨hclean, hkey, -⟩ := h
    obtain ⟨hall, hcollected⟩ := standsFor_of_checkTranslations hclean
    obtain ⟨p, hp, heq⟩ := List.any_eq_true.mp hkey
    obtain ⟨hroot, hkey⟩ := m.rootKey_eq_some.mp (eq_of_beq heq).symm
    refine ⟨a, ?_, fun t _ entity own linked hstands => hstands.eq_linked⟩
    exact {
      aggregate_eq := ha
      nodup := (nodup_of_checkTranslations hclean).1
      standsFor := hall
      key := ⟨p.1, p.2, hroot, hkey, hcollected p hp⟩ }

/-- Sales translates the clients of its upstream context CRM. The only translation is of a client,
by a link to the attribute `linked`: the client's key, or a partner's attribute of the same name. -/
def translatedClients (linked : AttributeId) : Model :=
  { Model.empty with
    contexts := [⟨"CRM", .feature, [⟨0⟩], [], [], [], none⟩,
      ⟨"Sales", .feature, [], [], [⟨0⟩], [], none⟩]
    aggregates := [⟨"Clients", some ⟨0⟩, [⟨0⟩, ⟨1⟩], []⟩]
    objects := [⟨"Client", ⟨0⟩, .entity ⟨none, none⟩, true, [⟨0⟩], [], none, none, []⟩,
      ⟨"Partner", ⟨0⟩, .entity ⟨none, none⟩, false, [⟨1⟩], [], none, none, []⟩]
    attributes := [⟨"clientId", "String", ⟨0⟩, true, none⟩,
      ⟨"clientId", "Integer", ⟨1⟩, false, none⟩]
    antiCorruptions := [⟨"ClientAcl", .translation, ⟨1⟩, some ⟨0⟩, some ⟨0⟩,
      [⟨"client", "String", some ⟨0⟩, some linked, none⟩], []⟩]
    contextMaps := [⟨"Landscape", none, [⟨0⟩, ⟨1⟩], [⟨0⟩]⟩]
    relationships := [.upstreamDownstream ⟨false, some ⟨0⟩, some ⟨1⟩, [], [], []⟩] }

theorem translatesInto_of_clean_clients :
    ((translatedClients ⟨0⟩).checkAntiCorruption ⟨0⟩).findings = [] ∧
      ∃ a, (translatedClients ⟨0⟩).TranslatesInto
        ((translatedClients ⟨0⟩).antiCorruption ⟨0⟩).value a := by
  have clean : ((translatedClients ⟨0⟩).checkAntiCorruption ⟨0⟩).findings = [] := by decide
  obtain ⟨a, ha, -⟩ := translatesInto_of_clean _ ⟨0⟩ clean
  exact ⟨clean, a, ha⟩

/-- **A link of a clean declaration may be foreign:** to an attribute of another entity and of
another type. Then no link is to the key. -/
theorem foreign_link_of_clean :
    let m := translatedClients ⟨1⟩
    m.InRange ∧ (m.checkAntiCorruption ⟨0⟩).findings = [] ∧
      (m.antiCorruption ⟨0⟩).value.attributes = [⟨"client", "String", some ⟨0⟩, some ⟨1⟩, none⟩] ∧
      ⟨1⟩ ∉ (m.object ⟨0⟩).value.attributes ∧ (m.attributeOf ⟨1⟩).value.type ≠ "String" ∧
      (m.rootKey ⟨0⟩).value = some (⟨0⟩, ⟨0⟩) :=
  ⟨linked_iff_inRange.mp (by decide), by decide, by decide, by decide, by decide, by decide⟩

end DomainModel.Model
