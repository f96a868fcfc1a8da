import DomainModel.Proofs.Clean.Mapping
import DomainModel.Proofs.Places.Rules

/-! # Well-formed entity mappings

A mapping is well formed (`m.WellFormedMapping`) if it leads from an entity that is no root to a
root entity with a key, if the aliases and the mapped attributes have distinct names, and if every
path leads along single-valued references between entities, from the mapped root or the end of an
alias, to an attribute of the declared type; some path ends in the key of the mapped root.

The rule of the aggregate accepts exactly these mappings (`mapping_clean_iff_wellFormed`). It skips
a reference that is no step and goes on from where it is, so what it finds behind such a reference
says nothing. On a well-formed mapping it never skips: there it collects the ends of the aliases and
the attributes in which the paths end. -/

namespace DomainModel.Model

open Check

variable (m : Model)

/-! ### Chains of references -/

/-- The entity `t` is the one value of the reference `r` of the object `o`. -/
structure RefersTo (o : ObjectId) (r : ReferenceId) (t : ObjectId) : Prop where
  listed : r ∈ (m.object o).value.references
  single : (m.reference r).value.collection = .none
  target : (m.reference r).value.target = some t
  isEntity : (m.object t).value.isEntity = true

/-- The references lead from object to object. -/
inductive Follows : ObjectId → List ReferenceId → ObjectId → Prop where
  | here (o : ObjectId) : Follows o [] o
  | next {o t u : ObjectId} {r : ReferenceId} {rest : List ReferenceId} (step : m.RefersTo o r t)
    (onward : Follows t rest u) : Follows o (r :: rest) u

variable {m}

theorem referenceStep_eq_ok_iff {o t : ObjectId} {r : ReferenceId} :
    (m.referenceStep o r).value = .ok t ↔ m.RefersTo o r t := by
  unfold referenceStep
  constructor
  · intro h
    simp only [Lookup.value_bind] at h
    split at h
    · cases h
    · next hlisted =>
      split at h
      · cases h
      · next hsingle =>
        split at h
        · cases h
        · next target htarget =>
          rw [Lookup.value_bind] at h
          split at h
          · next hentity =>
            cases h
            exact ⟨by simpa using hlisted, by simpa [CollectionKind.isCollection] using hsingle,
              htarget, hentity⟩
          · cases h
  · rintro ⟨hlisted, hsingle, htarget, hentity⟩
    simp [hlisted, hsingle, htarget, hentity, CollectionKind.isCollection]

/-- **A chain of references is walked in silence exactly if it leads somewhere,** and then its end
is found. -/
theorem follows_iff (node : NodeRef) (index : Nat) {o t : ObjectId}
    {references : List ReferenceId} :
    m.Follows o references t ↔
      (m.walkReferences node index o references).Avoids (fun _ => True) ∧
        (m.walkReferences node index o references).value = t := by
  induction references generalizing index o with
  | nil =>
    rw [walkReferences]
    constructor
    · rintro ⟨⟩
      exact ⟨avoids_pure, rfl⟩
    · rintro ⟨-, rfl⟩
      exact .here o
  | cons r rest ih =>
    rw [walkReferences, avoids_lift_bind, Check.value_bind, value_lift]
    cases hstep : (m.referenceStep o r).value with
    | ok target =>
      rw [← ih]
      constructor
      · intro h
        cases h with
        | next step onward =>
          rw [referenceStep_eq_ok_iff.mpr step] at hstep
          cases hstep
          exact onward
      · exact .next (referenceStep_eq_ok_iff.mp hstep)
    | error problem =>
      constructor
      · intro h
        cases h with
        | next step onward =>
          rw [referenceStep_eq_ok_iff.mpr step] at hstep
          cases hstep
      · rintro ⟨h, -⟩
        simp [avoids_bind] at h

theorem avoids_walkReferences {node : NodeRef} {index : Nat} {o : ObjectId}
    {references : List ReferenceId} :
    (m.walkReferences node index o references).Avoids (fun _ => True) ↔
      ∃ t, m.Follows o references t := by
  simp only [follows_iff node index, exists_and_left, exists_eq', and_true]

/-- The end of a walk does not depend on where the chain is written down. -/
theorem value_walkReferences_congr (node' node : NodeRef) (index' index : Nat) (o : ObjectId)
    (references : List ReferenceId) :
    (m.walkReferences node' index' o references).value =
      (m.walkReferences node index o references).value := by
  induction references generalizing index' index o with
  | nil => rfl
  | cons r rest ih =>
    rw [walkReferences, walkReferences, Check.value_bind, Check.value_bind, value_lift]
    cases (m.referenceStep o r).value with
    | ok target => exact ih _ _ target
    | error problem => exact ih _ _ o

/-! ### Aliases -/

theorem avoids_checkAliases {entity mapped : ObjectId} {index : Nat} {known : Aliases}
    {declarations : List AliasDeclaration} :
    (m.checkAliases entity mapped index known declarations).Avoids (fun _ => True) ↔
      ((declarations.map (·.name)).Nodup ∧
        ∀ name ∈ declarations.map (·.name), name ∉ known.map (·.1)) ∧
      ∀ d ∈ declarations, ∃ t, m.Follows mapped d.references t := by
  induction declarations generalizing index known with
  | nil => simp [checkAliases]
  | cons d rest ih =>
    have hknown : known.any (·.1 == d.name) = true ↔ d.name ∈ known.map (·.1) := by simp
    rw [List.map_cons, nodup_unseen_cons, List.forall_mem_cons]
    simp only [checkAliases, avoids_ite_bind, avoids_bind, avoids_report, not_true, imp_false, ih,
      hknown, avoids_walkReferences, List.map_cons]
    tauto

/-- The table of aliases lists them with the ends of their walks, the last one first. -/
theorem value_checkAliases (node : NodeRef) (entity mapped : ObjectId) (index : Nat)
    (known : Aliases) (declarations : List AliasDeclaration) :
    (m.checkAliases entity mapped index known declarations).value =
      declarations.reverse.map
        (fun d => (d.name, (m.walkReferences node 0 mapped d.references).value)) ++ known := by
  induction declarations generalizing index known with
  | nil => rfl
  | cons d rest ih =>
    have hend := m.value_walkReferences_congr (.aliasDeclaration entity index) node 0 0 mapped
      d.references
    rw [checkAliases]
    split <;> simp [ih, hend]

/-! ### Attribute paths -/

variable (m) in
/-- The path leads from the object `start` to an entity whose first attribute of the path's name is
`leaf`. -/
def PathFinds (start : ObjectId) (path : AttributePath) (leaf : AttributeId) : Prop :=
  ∃ owner, m.Follows start path.references owner ∧
    (m.attributeByName owner path.attributeName).value = some leaf

variable (m) in
/-- The attribute mapping ends in the attribute `leaf` and has its type. -/
def MapsLeaf (mapped : ObjectId) (aliases : Aliases) (mapping : EntityAttributeMapping)
    (leaf : AttributeId) : Prop :=
  ∃ start, pathStart mapped aliases mapping.path.head = some start ∧
    m.PathFinds start mapping.path leaf ∧ (m.attributeOf leaf).value.type = mapping.type

section

variable {entity mapped : ObjectId} {aliases : Aliases} {leaf : AttributeId}

/-- On a path to an attribute of the type nothing is reported, and the attribute is found. -/
theorem checkAttributePath_of_mapsLeaf (node : NodeRef) {mapping : EntityAttributeMapping}
    (h : m.MapsLeaf mapped aliases mapping leaf) :
    (m.checkAttributePath node mapped aliases mapping).Avoids (fun _ => True) ∧
      (m.checkAttributePath node mapped aliases mapping).value = some leaf := by
  obtain ⟨start, hstart, ⟨owner, hfollows, hleaf⟩, htype⟩ := h
  obtain ⟨hclean, howner⟩ := (follows_iff node 0).mp hfollows
  unfold checkAttributePath
  simp [hstart, avoids_bind, hclean, howner, hleaf, htype]

theorem exists_mapsLeaf_of_avoids {node : NodeRef} {mapping : EntityAttributeMapping}
    (h : (m.checkAttributePath node mapped aliases mapping).Avoids fun _ => True) :
    ∃ leaf, m.MapsLeaf mapped aliases mapping leaf := by
  unfold checkAttributePath at h
  cases hstart : pathStart mapped aliases mapping.path.head with
  | none =>
    cases hhead : mapping.path.head with
    | root => simp [pathStart, hhead] at hstart
    | declared name =>
      rw [hhead] at hstart
      simp [hhead, hstart] at h
  | some start =>
    simp only [hstart, avoids_bind, avoids_lift, value_lift, true_and] at h
    obtain ⟨hwalk, h⟩ := h
    obtain ⟨owner, hfollows⟩ := avoids_walkReferences.mp hwalk
    rw [((follows_iff node 0).mp hfollows).2] at h
    cases hleaf : (m.attributeByName owner mapping.path.attributeName).value with
    | none => simp [hleaf, avoids_bind] at h
    | some leaf =>
      rw [hleaf, avoids_lift_bind, avoids_ite_bind] at h
      exact ⟨leaf, start, hstart, ⟨owner, hfollows, hleaf⟩, by simpa using h.1⟩

theorem avoids_checkAttributePath {node : NodeRef} {mapping : EntityAttributeMapping} :
    (m.checkAttributePath node mapped aliases mapping).Avoids (fun _ => True) ↔
      ∃ leaf, m.MapsLeaf mapped aliases mapping leaf :=
  ⟨exists_mapsLeaf_of_avoids, fun ⟨_, h⟩ => (checkAttributePath_of_mapsLeaf _ h).1⟩

theorem avoids_checkAttributeMappings {index : Nat} {names : List String}
    {mappings : List EntityAttributeMapping} :
    (m.checkAttributeMappings entity mapped aliases index names mappings).Avoids (fun _ => True) ↔
      ((mappings.map (·.name)).Nodup ∧ ∀ name ∈ mappings.map (·.name), name ∉ names) ∧
      ∀ a ∈ mappings, ∃ leaf, m.MapsLeaf mapped aliases a leaf := by
  induction mappings generalizing index names with
  | nil => simp [checkAttributeMappings]
  | cons a rest ih =>
    rw [List.map_cons, nodup_unseen_cons, List.forall_mem_cons]
    simp only [checkAttributeMappings, avoids_ite_bind, avoids_bind, avoids_report, avoids_pure,
      not_true, imp_false, ih, List.contains_iff_mem, avoids_checkAttributePath]
    tauto

/-- The attributes in which mappings end are collected. -/
theorem mem_checkAttributeMappings {index : Nat} {names : List String}
    {mappings : List EntityAttributeMapping}
    (h : ∀ a ∈ mappings, ∃ leaf, m.MapsLeaf mapped aliases a leaf) :
    leaf ∈ (m.checkAttributeMappings entity mapped aliases index names mappings).value ↔
      ∃ a ∈ mappings, m.MapsLeaf mapped aliases a leaf := by
  induction mappings generalizing index names with
  | nil => simp [checkAttributeMappings]
  | cons a rest ih =>
    rw [List.forall_mem_cons] at h
    obtain ⟨⟨own, hown⟩, hrest⟩ := h
    have hvalue := (checkAttributePath_of_mapsLeaf (.attributeMapping entity index) hown).2
    have hsame : m.MapsLeaf mapped aliases a leaf ↔ leaf = own := by
      constructor
      · intro hleaf
        have := (checkAttributePath_of_mapsLeaf (.attributeMapping entity index) hleaf).2
        exact Option.some.inj (this.symm.trans hvalue)
      · rintro rfl
        exact hown
    rw [checkAttributeMappings]
    split <;> simp [hvalue, ih hrest, hsame]

end

/-! ### Mappings -/

section

variable (m) (mapped : ObjectId) (declarations : List AliasDeclaration)

/-- Where a path starts: at the mapped entity, or at the end of an alias. -/
inductive StartsAt : AttributePathHead → ObjectId → Prop where
  | root : StartsAt .root mapped
  | declared {d : AliasDeclaration} {t : ObjectId} (hd : d ∈ declarations)
    (follows : m.Follows mapped d.references t) : StartsAt (.declared d.name) t

/-- The path ends in the attribute `leaf`. -/
def PathEnds (path : AttributePath) (leaf : AttributeId) : Prop :=
  ∃ start, m.StartsAt mapped declarations path.head start ∧ m.PathFinds start path leaf

end

/-- The mapping of the entity is in order, and leads to the entity `root`. -/
structure WellFormedMapping (m : Model) (entity : ObjectId) (mapping : EntityMapping)
    (root : ObjectId) : Prop extends MapsRoot m entity mapping root where
  aliases_nodup : (mapping.aliases.map (·.name)).Nodup
  alias_leads : ∀ d ∈ mapping.aliases, ∃ t, m.Follows root d.references t
  names_nodup : (mapping.attributes.map (·.name)).Nodup
  path_ends : ∀ a ∈ mapping.attributes, ∃ leaf, m.PathEnds root mapping.aliases a.path leaf ∧
    (m.attributeOf leaf).value.type = a.type
  key_mapped : ∃ key, (m.keyAttribute root).value = some key ∧
    ∃ a ∈ mapping.attributes, m.PathEnds root mapping.aliases a.path key

theorem Follows.unique {o t u : ObjectId} {references : List ReferenceId}
    (ht : m.Follows o references t) (hu : m.Follows o references u) : t = u := by
  rw [follows_iff (.domainObject o) 0] at ht hu
  exact ht.2.symm.trans hu.2

theorem PathFinds.unique {start : ObjectId} {path : AttributePath} {leaf leaf' : AttributeId}
    (h : m.PathFinds start path leaf) (h' : m.PathFinds start path leaf') : leaf = leaf' := by
  obtain ⟨owner, hfollows, hleaf⟩ := h
  obtain ⟨owner', hfollows', hleaf'⟩ := h'
  obtain rfl := hfollows.unique hfollows'
  exact Option.some.inj (hleaf.symm.trans hleaf')

/-- Where the aliases have distinct names, a path ends in one attribute only. -/
theorem PathEnds.unique {mapped : ObjectId} {declarations : List AliasDeclaration}
    {path : AttributePath} {leaf leaf' : AttributeId} (h : m.PathEnds mapped declarations path leaf)
    (hnodup : (declarations.map (·.name)).Nodup)
    (h' : m.PathEnds mapped declarations path leaf') : leaf = leaf' := by
  obtain ⟨start, hstart, hfinds⟩ := h
  obtain ⟨start', hstart', hfinds'⟩ := h'
  obtain rfl : start = start' := by
    generalize path.head = head at hstart hstart'
    cases hstart with
    | root =>
      cases hstart'
      rfl
    | @declared d t hd follows =>
      generalize hname : d.name = name at hstart'
      cases hstart' with
      | declared hd' follows' =>
        obtain rfl := List.inj_on_of_nodup_map hnodup hd hd' hname
        exact follows.unique follows'
  exact hfinds.unique hfinds'

/-- An alias is looked up by its last declaration. -/
theorem pathStart_checkAliases (node : NodeRef) (entity mapped : ObjectId)
    (declarations : List AliasDeclaration) (name : String) :
    pathStart mapped (m.checkAliases entity mapped 0 [] declarations).value (.declared name) =
      (declarations.reverse.find? (·.name == name)).map fun d =>
        (m.walkReferences node 0 mapped d.references).value := by
  rw [pathStart, value_checkAliases node, List.append_nil, List.find?_map, Option.map_map]
  rfl

/-- Paths start where the table of aliases says, if the aliases have distinct names and lead
somewhere. -/
theorem pathStart_iff {entity mapped : ObjectId} {declarations : List AliasDeclaration}
    (hnodup : (declarations.map (·.name)).Nodup)
    (hleads : ∀ d ∈ declarations, ∃ t, m.Follows mapped d.references t) {head : AttributePathHead}
    {start : ObjectId} :
    pathStart mapped (m.checkAliases entity mapped 0 [] declarations).value head = some start ↔
      m.StartsAt mapped declarations head start := by
  cases head with
  | root =>
    constructor
    · rintro ⟨⟩
      exact .root
    · rintro ⟨⟩
      rfl
  | declared name =>
    rw [m.pathStart_checkAliases (.domainObject mapped), Option.map_eq_some_iff]
    constructor
    · rintro ⟨d, hd, rfl⟩
      have hmem := List.mem_reverse.mp (List.mem_of_find?_eq_some hd)
      obtain rfl : d.name = name := by simpa using List.find?_some hd
      obtain ⟨t, ht⟩ := hleads d hmem
      rw [((follows_iff _ _).mp ht).2]
      exact .declared hmem ht
    · rintro ⟨⟩
      next d hd follows =>
        refine ⟨d, ?_, ((follows_iff _ _).mp follows).2⟩
        rw [find?_eq_some_iff_of_inj]
        · exact ⟨List.mem_reverse.mpr hd, rfl⟩
        · intro a ha b hb
          exact List.inj_on_of_nodup_map hnodup (List.mem_reverse.mp ha) (List.mem_reverse.mp hb)

/-- In a mapping whose aliases are in order, the rule finds the ends of the paths. -/
theorem mapsLeaf_iff {entity root : ObjectId} {mapping : EntityMapping}
    (hnodup : (mapping.aliases.map (·.name)).Nodup)
    (hleads : ∀ d ∈ mapping.aliases, ∃ t, m.Follows root d.references t)
    {a : EntityAttributeMapping} {leaf : AttributeId} :
    m.MapsLeaf root (m.checkAliases entity root 0 [] mapping.aliases).value a leaf ↔
      m.PathEnds root mapping.aliases a.path leaf ∧ (m.attributeOf leaf).value.type = a.type := by
  simp only [MapsLeaf, PathEnds, pathStart_iff hnodup hleads, ← and_assoc, exists_and_right]

theorem value_checkMappedRoot (entity root : ObjectId) :
    (m.checkMappedRoot entity root).value = (m.keyAttribute root).value := by
  rw [checkMappedRoot, Check.value_bind, value_lift]
  split <;> simp only [Check.value_bind, value_lift] <;> split <;> rfl

/-- The rule on a mapping that leads to the entity `root`, one part after the other. -/
theorem avoids_checkEntityMapping_resolved {entity root : ObjectId} {mapping : EntityMapping}
    (hentity : mapping.entity = some root) {aliases : Aliases}
    (haliases : (m.checkAliases entity root 0 [] mapping.aliases).value = aliases) :
    (m.checkEntityMapping entity mapping).Avoids (fun _ => True) ↔
      (m.object entity).value.aggregateRoot = false ∧
      ((m.object root).value.isRootEntity = true ∧
        ∃ key, (m.keyAttribute root).value = some key) ∧
      (m.checkAliases entity root 0 [] mapping.aliases).Avoids (fun _ => True) ∧
      (m.checkAttributeMappings entity root aliases 0 [] mapping.attributes).Avoids
        (fun _ => True) ∧
      ∀ key, (m.keyAttribute root).value = some key →
        key ∈ (m.checkAttributeMappings entity root aliases 0 [] mapping.attributes).value := by
  have hmapped : (m.checkMappedRoot entity root).Avoids (fun _ => True) ↔
      (m.object root).value.isRootEntity = true ∧
        ∃ key, (m.keyAttribute root).value = some key :=
    avoids_checkMappedRoot (fun _ => trivial) (fun _ => trivial)
  rw [checkEntityMapping, avoids_lift_bind, avoids_ite_bind, hentity]
  simp only [avoids_bind, hmapped, value_checkMappedRoot, haliases, avoids_report, not_true,
    imp_false, Bool.not_eq_true]
  cases hkey : (m.keyAttribute root).value with
  | none => simp
  | some key =>
    simp only [avoids_ite, avoids_lift_bind, avoids_report]
    simp

/-- **The mappings about which nothing is reported are the well-formed ones.** -/
theorem avoids_checkEntityMapping {entity : ObjectId} {mapping : EntityMapping} :
    (m.checkEntityMapping entity mapping).Avoids (fun _ => True) ↔
      ∃ root, m.WellFormedMapping entity mapping root := by
  constructor
  · intro h
    cases hentity : mapping.entity with
    | none => simp [checkEntityMapping, avoids_lift_bind, avoids_ite_bind, hentity] at h
    | some root =>
      rw [avoids_checkEntityMapping_resolved hentity rfl, avoids_checkAliases,
        avoids_checkAttributeMappings] at h
      obtain ⟨hnot, ⟨hroot, key, hkey⟩, ⟨⟨haliases, -⟩, hleads⟩, ⟨⟨hnames, -⟩, hpaths⟩, hcovered⟩ :=
        h
      have hmapped := (mem_checkAttributeMappings hpaths).mp (hcovered key hkey)
      simp only [mapsLeaf_iff haliases hleads] at hpaths hmapped
      obtain ⟨a, ha, hends, -⟩ := hmapped
      exact ⟨root, {
        not_root := hnot
        entity_eq := hentity
        isRootEntity := hroot
        key := ⟨key, hkey⟩
        aliases_nodup := haliases
        alias_leads := hleads
        names_nodup := hnames
        path_ends := hpaths
        key_mapped := ⟨key, hkey, a, ha, hends⟩ }⟩
  · rintro ⟨root, h⟩
    have hpaths : ∀ a ∈ mapping.attributes, ∃ leaf,
        m.MapsLeaf root (m.checkAliases entity root 0 [] mapping.aliases).value a leaf := by
      simpa only [mapsLeaf_iff h.aliases_nodup h.alias_leads] using h.path_ends
    rw [avoids_checkEntityMapping_resolved h.entity_eq rfl, avoids_checkAliases,
      avoids_checkAttributeMappings]
    refine ⟨h.not_root, ⟨h.isRootEntity, h.key⟩, ⟨⟨h.aliases_nodup, by simp⟩, h.alias_leads⟩,
      ⟨⟨h.names_nodup, by simp⟩, hpaths⟩, fun key hkey => ?_⟩
    obtain ⟨key', hkey', a, ha, hends⟩ := h.key_mapped
    obtain rfl : key' = key := Option.some.inj (hkey'.symm.trans hkey)
    rw [mem_checkAttributeMappings hpaths]
    -- the path has the type of the attribute in which it ends, and it ends in one only
    obtain ⟨leaf, hleaf, htype⟩ := h.path_ends a ha
    obtain rfl := hleaf.unique h.aliases_nodup hends
    exact ⟨a, ha, (mapsLeaf_iff h.aliases_nodup h.alias_leads).mpr ⟨hends, htype⟩⟩

/-! ### Findings about a mapping -/

/-- The finding is about the mapping of the entity. Most are on the mapping, on its parts or on the
entity; that the mapped root has no key is reported on the root. -/
inductive OnMapping (entity : ObjectId) (mapping : EntityMapping) (f : Finding) : Prop where
  | whole (node : f.location.node = .entityMapping entity)
  | ofAlias {i : Nat} (node : f.location.node = .aliasDeclaration entity i)
  | ofAttribute {i : Nat} (node : f.location.node = .attributeMapping entity i)
  | entity (node : f.location.node = .domainObject entity) (feature : f.location.feature = .mapping)
    (problem : ∀ name, f.problem ≠ .rootWithoutKey name)
  | mapped {root : ObjectId} {name : String} (entity_eq : mapping.entity = some root)
    (node : f.location.node = .domainObject root) (problem : f.problem = .rootWithoutKey name)

section

variable {entity root : ObjectId} {mapping : EntityMapping} {f : Finding}

theorem alias_of_mem_checkAliases {declarations : List AliasDeclaration}
    (h : f ∈ (m.checkAliases entity root 0 [] declarations).findings) :
    ∃ i, f.location.node = .aliasDeclaration entity i :=
  within_checkAliases (P := fun l => ∃ i, l.node = .aliasDeclaration entity i) root []
    (fun _ _ _ => ⟨fun _ => ⟨_, rfl⟩, fun _ _ => ⟨_, rfl⟩⟩) f h

theorem attribute_of_mem_checkAttributeMappings {aliases : Aliases}
    {mappings : List EntityAttributeMapping}
    (h : f ∈ (m.checkAttributeMappings entity root aliases 0 [] mappings).findings) :
    ∃ i, f.location.node = .attributeMapping entity i :=
  within_checkAttributeMappings (P := fun l => ∃ i, l.node = .attributeMapping entity i) root
    aliases [] (fun _ _ _ => ⟨fun _ => ⟨_, rfl⟩, fun _ _ => ⟨_, rfl⟩⟩) f h

theorem mem_checkMappedRoot (h : f ∈ (m.checkMappedRoot entity root).findings) :
    (f.location = ⟨.domainObject entity, .mapping, none⟩ ∧
        ∀ name, f.problem ≠ .rootWithoutKey name) ∨
      (f.location.node = .domainObject root ∧ (m.keyAttribute root).value = none ∧
        ∃ name, f.problem = .rootWithoutKey name) := by
  rw [checkMappedRoot, findings_bind, findings_lift, List.nil_append, mem_findings_ite_bind,
    findings_bind, findings_lift, List.nil_append, mem_findings_ite_bind] at h
  rcases h with ⟨-, h⟩ | ⟨hkey, h⟩ | h
  · obtain rfl := List.mem_singleton.mp h
    exact .inl ⟨rfl, by simp⟩
  · obtain rfl := List.mem_singleton.mp h
    exact .inr ⟨rfl, by simpa using hkey, _, rfl⟩
  · cases h

/-- A mapping is blamed on its entity, on the mapped root if that has no key, or on a part. -/
theorem mem_checkEntityMapping (hentity : mapping.entity = some root)
    (h : f ∈ (m.checkEntityMapping entity mapping).findings) :
    (f.location = ⟨.domainObject entity, .mapping, none⟩ ∧
        ∀ name, f.problem ≠ .rootWithoutKey name) ∨
      (f.location.node = .domainObject root ∧ (m.keyAttribute root).value = none ∧
        ∃ name, f.problem = .rootWithoutKey name) ∨
      (∃ i, f.location.node = .aliasDeclaration entity i) ∨
      ∃ i, f.location.node = .attributeMapping entity i := by
  rw [checkEntityMapping, findings_bind, findings_lift, List.nil_append, mem_findings_ite_bind,
    hentity] at h
  rcases h with ⟨-, h⟩ | h
  · obtain rfl := List.mem_singleton.mp h
    exact .inl ⟨rfl, by simp⟩
  simp only [findings_bind, List.mem_append] at h
  rcases h with h | h | h | h
  · exact (mem_checkMappedRoot h).imp_right .inl
  · exact .inr (.inr (.inl (alias_of_mem_checkAliases h)))
  · exact .inr (.inr (.inr (attribute_of_mem_checkAttributeMappings h)))
  · split at h
    · split at h
      · obtain rfl := List.mem_singleton.mp h
        exact .inl ⟨rfl, by simp⟩
      · cases h
    · cases h

theorem onMapping_of_mem (h : f ∈ (m.checkEntityMapping entity mapping).findings) :
    OnMapping entity mapping f := by
  cases hentity : mapping.entity with
  | none =>
    rw [checkEntityMapping, findings_bind, findings_lift, List.nil_append, mem_findings_ite_bind,
      hentity] at h
    rcases h with ⟨-, h⟩ | h
    · obtain rfl := List.mem_singleton.mp h
      exact .entity rfl rfl (by simp)
    · obtain rfl := List.mem_singleton.mp h
      exact .whole rfl
  | some root =>
    obtain ⟨hplace, hproblem⟩ | ⟨hnode, -, name, hproblem⟩ | ⟨i, hnode⟩ | ⟨i, hnode⟩ :=
      mem_checkEntityMapping hentity h
    · exact .entity (by rw [hplace]) (by rw [hplace]) hproblem
    · exact .mapped hentity hnode hproblem
    · exact .ofAlias hnode
    · exact .ofAttribute hnode

/-- The mapping of another entity is blamed for this one only if both lead to one root, and that has
no key. -/
theorem not_onMapping_of_mem {other : ObjectId} {mapping' : EntityMapping} (hne : other ≠ entity)
    (h : f ∈ (m.checkEntityMapping other mapping').findings)
    (hkey : ∀ root, mapping.entity = some root → (m.keyAttribute root).value ≠ none) :
    ¬OnMapping entity mapping f := by
  intro hon
  cases hon with
  | whole node | ofAlias node | ofAttribute node =>
    cases onMapping_of_mem h <;> simp_all
  | entity node feature problem =>
    cases onMapping_of_mem h <;> simp_all
  | @mapped root _ entity_eq node problem =>
    cases onMapping_of_mem h with
    | whole node' | ofAlias node' | ofAttribute node' | entity node' => simp_all
    | @mapped root' _ entity_eq' node' =>
      -- both mappings lead to this root, and it is blamed only for having no key
      obtain rfl : root' = root := by simpa [node] using node'.symm
      obtain ⟨-, hproblem⟩ | ⟨-, hnone, -⟩ | ⟨i, hnode⟩ | ⟨i, hnode⟩ :=
        mem_checkEntityMapping entity_eq' h
      · exact hproblem _ problem
      · exact hkey _ entity_eq hnone
      · simp [node] at hnode
      · simp [node] at hnode

theorem not_onMapping_of_mem_reportIfSeveral {problem : Problem} {feature : Feature}
    {objects : List ObjectId} (hfeature : feature ≠ .mapping)
    (hproblem : ∀ name, problem ≠ .rootWithoutKey name)
    (h : f ∈ (reportIfSeveral problem feature objects).findings) : ¬OnMapping entity mapping f := by
  rw [reportIfSeveral] at h
  split at h
  · rw [findings_each, List.mem_flatMap] at h
    obtain ⟨o, -, h⟩ := h
    obtain rfl := List.mem_singleton.mp h
    intro hon
    cases hon <;> simp_all
  · cases h

theorem mem_checkAggregate {a : AggregateId} :
    f ∈ (m.checkAggregate a).findings ↔
      f ∈ (m.checkSingleRoot (m.aggregate a).value).findings ∨
      f ∈ (m.checkSingleLifecycle (m.aggregate a).value).findings ∨
      ∃ o ∈ (m.aggregate a).value.objects, ∃ mapping, (m.object o).value.mapping? = some mapping ∧
        f ∈ (m.checkEntityMapping o mapping).findings := by
  simp only [checkAggregate, findings_bind, findings_lift, List.nil_append, List.mem_append,
    findings_each, List.mem_flatMap]
  refine or_congr_right (or_congr_right (exists_congr fun o => and_congr_right fun _ => ?_))
  cases (m.object o).value.mapping? <;> simp

/-- **The aggregate reports nothing about the mapping of an entity exactly if the mapping is well
formed.** -/
theorem mapping_clean_iff_wellFormed {a : AggregateId}
    (hentity : entity ∈ (m.aggregate a).value.objects)
    (hmapping : (m.object entity).value.mapping? = some mapping) :
    (∀ f ∈ (m.checkAggregate a).findings, ¬OnMapping entity mapping f) ↔
      ∃ root, m.WellFormedMapping entity mapping root := by
  constructor
  · intro h
    refine avoids_checkEntityMapping.mp fun f hf => ?_
    have hmem := mem_checkAggregate.mpr (.inr (.inr ⟨entity, hentity, mapping, hmapping, hf⟩))
    exact absurd (onMapping_of_mem hf) (h f hmem)
  · rintro ⟨root, hwell⟩ f hf
    obtain hf | hf | ⟨other, -, mapping', hmapping', hf⟩ := mem_checkAggregate.mp hf
    · exact not_onMapping_of_mem_reportIfSeveral (by simp) (by simp) hf
    · exact not_onMapping_of_mem_reportIfSeveral (by simp) (by simp) hf
    · by_cases hsame : other = entity
      · subst hsame
        obtain rfl : mapping' = mapping := Option.some.inj (hmapping'.symm.trans hmapping)
        exact absurd trivial (avoids_checkEntityMapping.mpr ⟨root, hwell⟩ f hf)
      · refine not_onMapping_of_mem hsame hf fun root' hroot' => ?_
        obtain rfl : root' = root := Option.some.inj (hroot'.symm.trans hwell.entity_eq)
        obtain ⟨key, hkey⟩ := hwell.key
        simp [hkey]

end

/-- Customers stand for the clients of CRM. Their mapping calls the contact of a client c, and maps
one attribute besides the key. -/
def contactedClients (contact : CollectionKind) (mapped : EntityAttributeMapping) : Model :=
  { Model.empty with
    contexts := [⟨"CRM", .feature, [⟨0⟩], [], [], [], none⟩,
      ⟨"Sales", .feature, [⟨1⟩], [], [], [], none⟩]
    aggregates := [⟨"Clients", some ⟨0⟩, [⟨0⟩, ⟨1⟩], []⟩, ⟨"Customers", some ⟨1⟩, [⟨2⟩], []⟩]
    objects := [⟨"Client", ⟨0⟩, .entity ⟨none, none⟩, true, [⟨0⟩], [⟨0⟩], none, none, []⟩,
      ⟨"Contact", ⟨0⟩, .entity ⟨none, none⟩, false, [⟨1⟩], [], none, none, []⟩,
      ⟨"Customer", ⟨1⟩,
        .entity ⟨some ⟨"CRM", "Clients", some ⟨0⟩, [⟨"c", [⟨0⟩]⟩],
          [⟨"client", "String", .root, [], "clientId"⟩, mapped]⟩, none⟩,
        false, [], [], none, none, []⟩]
    attributes := [⟨"clientId", "String", ⟨0⟩, true, none⟩, ⟨"mail", "String", ⟨1⟩, false, none⟩]
    references := [⟨"contact", ⟨0⟩, some ⟨1⟩, contact⟩] }

/-- The mail of the contact is a String, and no Number. -/
theorem mapping_clean_iff_wellFormed_contacts :
    (let m := contactedClients .none ⟨"mail", "String", .declared "c", [], "mail"⟩
      ∃ mapping, (m.object ⟨2⟩).value.mapping? = some mapping ∧
        ∃ root, m.WellFormedMapping ⟨2⟩ mapping root) ∧
    (let m := contactedClients .none ⟨"mail", "Number", .declared "c", [], "mail"⟩
      ∃ mapping, (m.object ⟨2⟩).value.mapping? = some mapping ∧
        ¬∃ root, m.WellFormedMapping ⟨2⟩ mapping root) := by
  constructor
  · intro m
    have clean : (m.checkAggregate ⟨1⟩).findings = [] := by decide
    refine ⟨_, rfl, ?_⟩
    refine (mapping_clean_iff_wellFormed (a := ⟨1⟩) (List.mem_singleton.mpr rfl) rfl).mp ?_
    simp [clean]
  · intro m
    have blamed : ⟨.declaredType .mapping "String", .attributeMapping ⟨2⟩ 1, .type, none⟩ ∈
        (m.checkAggregate ⟨1⟩).findings := by decide
    exact ⟨_, rfl, fun well => (mapping_clean_iff_wellFormed (a := ⟨1⟩)
      (List.mem_singleton.mpr rfl) rfl).mpr well _ blamed (.ofAttribute rfl)⟩

end DomainModel.Model
