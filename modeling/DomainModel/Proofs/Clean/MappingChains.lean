import DomainModel.Proofs.Clean.WellFormedMapping
import DomainModel.Proofs.Typing.Chains
import DomainModel.Proofs.Typing.Inherited

/-! # Mapping paths as property chains

A path of a mapping follows references by their handles; a property chain finds them by name. Where
the names within each object tell its properties apart and no object lends its place to a value
object, both lead to the same objects (`leads_of_follows`).

So if the aggregate is silent on an attribute mapping and on the alias at which its path starts, the
names along the path are a property chain from the mapped entity to an attribute of the declared
type (`walk_attributeMapping`). Silence on the attribute mapping alone does not suffice: the rule
reports a reference that is no step where it stands, at the alias, and skips it
(`walk_skipped_alias`). -/

namespace DomainModel

/-- The references along a path: those of the alias at which it starts, if it starts at one, and its
own. -/
def EntityMapping.pathReferences (mapping : EntityMapping) (path : AttributePath) :
    List ReferenceId :=
  match path.head with
  | .root => path.references
  | .declared name =>
    (mapping.aliases.reverse.find? (·.name == name)).elim [] (·.references) ++ path.references

namespace Model

open Check

variable {m : Model}

/-! ### Names that tell properties apart -/

/-- The names of the object's references tell these apart, from each other and from attributes, and
they are looked up in the object itself. -/
structure NamesApart (m : Model) (o : ObjectId) : Prop where
  no_uses : (m.object o).value.uses? = none
  inj : ∀ r ∈ (m.object o).value.references, ∀ s ∈ (m.object o).value.references,
    (m.reference r).value.name = (m.reference s).value.name → r = s
  unhidden : ∀ r ∈ (m.object o).value.references, ∀ a ∈ (m.object o).value.attributes,
    (m.reference r).value.name ≠ (m.attributeOf a).value.name

instance (m : Model) (o : ObjectId) : Decidable (m.NamesApart o) :=
  decidable_of_iff
    ((m.object o).value.uses? = none ∧
      (∀ r ∈ (m.object o).value.references, ∀ s ∈ (m.object o).value.references,
        (m.reference r).value.name = (m.reference s).value.name → r = s) ∧
      ∀ r ∈ (m.object o).value.references, ∀ a ∈ (m.object o).value.attributes,
        (m.reference r).value.name ≠ (m.attributeOf a).value.name)
    ⟨fun ⟨h1, h2, h3⟩ => ⟨h1, h2, h3⟩, fun ⟨h1, h2, h3⟩ => ⟨h1, h2, h3⟩⟩

theorem value_propertyOwner {o : ObjectId} (h : m.NamesApart o) :
    (m.propertyOwner o).value = o := by
  simp [propertyOwner, h.no_uses]

theorem linksTo_of_refersTo {o t : ObjectId} {r : ReferenceId} (hapart : m.NamesApart o)
    (h : m.RefersTo o r t) : m.LinksTo o (m.reference r).value.name t := by
  have hfound : (m.referenceByName o (m.reference r).value.name).value = some r := by
    rw [value_referenceByName, find?_eq_some_iff_of_inj hapart.inj]
    exact ⟨h.listed, rfl⟩
  refine ⟨(m.reference r).value, ?_, ?_, h.target⟩
  · rw [head?_referencesNamed, value_propertyOwner hapart, hfound]
    rfl
  · rw [h.single]
    rfl

theorem endsIn_of_attributeByName {o : ObjectId} {name : String} {leaf : AttributeId}
    (hapart : m.NamesApart o) (h : (m.attributeByName o name).value = some leaf) :
    m.EndsIn o name (.primitive (m.attributeOf leaf).value.type) := by
  obtain ⟨hleaf, hname⟩ := m.attributeByName_some h
  refine .attribute ?_ ?_
  · rw [← List.head?_eq_none_iff, head?_referencesNamed, value_propertyOwner hapart,
      value_referenceByName, Option.map_eq_none_iff, List.find?_eq_none]
    intro r hr
    rw [← hname]
    simpa using hapart.unhidden r hr leaf hleaf
  · rw [head?_attributesNamed, value_propertyOwner hapart, h]
    rfl

/-! ### Chains -/

variable (m) in
/-- The object and the targets of the references. -/
def along (o : ObjectId) (references : List ReferenceId) : List ObjectId :=
  o :: references.filterMap fun r => (m.reference r).value.target

theorem along_cons {o t : ObjectId} {r : ReferenceId} {rest : List ReferenceId}
    (h : (m.reference r).value.target = some t) : m.along o (r :: rest) = o :: m.along t rest := by
  simp [along, h]

variable (m) in
def referenceNames (references : List ReferenceId) : List String :=
  references.map fun r => (m.reference r).value.name

theorem Follows.append {o t u : ObjectId} {references more : List ReferenceId}
    (h : m.Follows o references t) (hmore : m.Follows t more u) :
    m.Follows o (references ++ more) u := by
  induction h with
  | here => exact hmore
  | next step _ ih => exact .next step (ih hmore)

theorem Follows.mem_along {o t : ObjectId} {references : List ReferenceId}
    (h : m.Follows o references t) : t ∈ m.along o references := by
  induction h with
  | here => exact .head _
  | next step _ ih =>
    rw [along_cons step.target]
    exact .tail _ ih

/-- **The names of the references lead to the same object as the references.** -/
theorem leads_of_follows {o t : ObjectId} {references : List ReferenceId}
    (h : m.Follows o references t) (hapart : ∀ u ∈ m.along o references, m.NamesApart u) :
    m.Leads o (m.referenceNames references) t := by
  induction h with
  | here => exact .here _
  | next step _ ih =>
    rw [along_cons step.target, List.forall_mem_cons] at hapart
    exact .next (linksTo_of_refersTo hapart.1 step) (ih hapart.2)

theorem walk_of_follows {o owner : ObjectId} {references : List ReferenceId} {name : String}
    {leaf : AttributeId} (h : m.Follows o references owner)
    (hleaf : (m.attributeByName owner name).value = some leaf)
    (hapart : ∀ u ∈ m.along o references, m.NamesApart u) :
    (m.walk o (m.referenceNames references ++ [name])).value =
      .ok (.primitive (m.attributeOf leaf).value.type) := by
  refine walk_eq_ok_iff.mpr (.inr ⟨_, name, owner, rfl, leads_of_follows h hapart, ?_⟩)
  exact endsIn_of_attributeByName (hapart owner h.mem_along) hleaf

/-! ### Silence at a node -/

section

variable {entity mapped : ObjectId} {f : Finding}

/-- What is found on the way along an alias is found at its declaration. -/
theorem mem_checkAliases {known : Aliases} {declarations : List AliasDeclaration} {index i : Nat}
    {d : AliasDeclaration} (hd : declarations[i]? = some d)
    (h : f ∈ (m.walkReferences (.aliasDeclaration entity (index + i)) 0 mapped
      d.references).findings) :
    f ∈ (m.checkAliases entity mapped index known declarations).findings := by
  induction declarations generalizing index i known with
  | nil => cases hd
  | cons first rest ih =>
    rw [checkAliases, mem_findings_ite_bind, findings_bind, List.mem_append]
    cases i with
    | zero =>
      cases hd
      exact .inr (.inl h)
    | succ i => exact .inr (.inr (ih hd (by rwa [Nat.add_right_comm])))

theorem mem_checkAttributeMappings_of_path {aliases : Aliases} {names : List String}
    {mappings : List EntityAttributeMapping} {index i : Nat} {a : EntityAttributeMapping}
    (ha : mappings[i]? = some a)
    (h : f ∈ (m.checkAttributePath (.attributeMapping entity (index + i)) mapped aliases
      a).findings) :
    f ∈ (m.checkAttributeMappings entity mapped aliases index names mappings).findings := by
  induction mappings generalizing index i names with
  | nil => cases ha
  | cons first rest ih =>
    rw [checkAttributeMappings, mem_findings_ite_bind, findings_bind, List.mem_append,
      findings_bind, List.mem_append]
    cases i with
    | zero =>
      cases ha
      exact .inr (.inl h)
    | succ i => exact .inr (.inr (.inl (ih ha (by rwa [Nat.add_right_comm]))))

theorem mem_checkEntityMapping_of_part {mapping : EntityMapping} {aliases : Aliases}
    (hentity : mapping.entity = some mapped)
    (haliases : (m.checkAliases entity mapped 0 [] mapping.aliases).value = aliases)
    (h : f ∈ (m.checkAliases entity mapped 0 [] mapping.aliases).findings ∨
      f ∈ (m.checkAttributeMappings entity mapped aliases 0 [] mapping.attributes).findings) :
    f ∈ (m.checkEntityMapping entity mapping).findings := by
  rw [checkEntityMapping, findings_bind, List.mem_append, mem_findings_ite_bind, hentity]
  simp only [findings_bind, List.mem_append, haliases]
  tauto

/-- Nothing is found at the node. -/
def SilentAt {α : Type} (c : Check α) (node : NodeRef) : Prop :=
  ∀ f ∈ c.findings, f.location.node ≠ node

instance {α : Type} (c : Check α) (node : NodeRef) : Decidable (SilentAt c node) :=
  inferInstanceAs (Decidable (∀ f ∈ c.findings, f.location.node ≠ node))

/-- A chain whose node is silent leads somewhere. -/
theorem follows_of_silent {node : NodeRef} {references : List ReferenceId}
    (h : SilentAt (m.walkReferences node 0 mapped references) node) :
    m.Follows mapped references (m.walkReferences node 0 mapped references).value := by
  refine (follows_iff node 0).mpr ⟨fun f hf => absurd ?_ (h f hf), rfl⟩
  exact within_walkReferences (P := fun l => l.node = node) mapped (fun _ _ => rfl)
    (Nat.zero_add _) f hf

theorem exists_mapsLeaf_of_silent {node : NodeRef} {aliases : Aliases} {a : EntityAttributeMapping}
    (h : SilentAt (m.checkAttributePath node mapped aliases a) node) :
    ∃ leaf, m.MapsLeaf mapped aliases a leaf := by
  refine exists_mapsLeaf_of_avoids fun f hf => absurd ?_ (h f hf)
  exact within_checkAttributePath (P := fun l => l.node = node) mapped aliases
    ⟨fun _ => rfl, fun _ _ => rfl⟩ f hf

end

/-! ### Mapping paths -/

theorem mapping_inRange (hm : m.InRange) {o : ObjectId} {mapping : EntityMapping}
    (h : (m.object o).value.mapping? = some mapping) : mapping.InRange m :=
  Lookup.forall_node (Q := fun object => ∀ e ∈ object.mapping?, e.InRange m) (by rintro e ⟨⟩)
    (fun object hobject => (hm.objects object hobject).mapping) o mapping h

section

variable {a : AggregateId} {entity mapped : ObjectId} {mapping : EntityMapping} {i : Nat}
  {part : EntityAttributeMapping} (hentity : entity ∈ (m.aggregate a).value.objects)
  (hmapping : (m.object entity).value.mapping? = some mapping)
  (hmapped : mapping.entity = some mapped)
include hentity hmapping hmapped

theorem mem_checkAggregate_of_part {f : Finding} {aliases : Aliases}
    (haliases : (m.checkAliases entity mapped 0 [] mapping.aliases).value = aliases)
    (h : f ∈ (m.checkAliases entity mapped 0 [] mapping.aliases).findings ∨
      f ∈ (m.checkAttributeMappings entity mapped aliases 0 [] mapping.attributes).findings) :
    f ∈ (m.checkAggregate a).findings := by
  refine mem_checkAggregate.mpr (.inr (.inr ⟨entity, hentity, mapping, hmapping, ?_⟩))
  exact mem_checkEntityMapping_of_part hmapped haliases h

/-- A declaration of an alias that is silent leads from the mapped entity to where the rule says. -/
theorem follows_of_silent_alias {j : Nat} {d : AliasDeclaration}
    (hd : mapping.aliases[j]? = some d)
    (h : SilentAt (m.checkAggregate a) (.aliasDeclaration entity j)) (node : NodeRef) :
    m.Follows mapped d.references (m.walkReferences node 0 mapped d.references).value := by
  rw [value_walkReferences_congr node (.aliasDeclaration entity j) 0 0]
  refine follows_of_silent fun f hf => h f ?_
  refine mem_checkAggregate_of_part hentity hmapping hmapped rfl (.inl ?_)
  exact mem_checkAliases hd (by rwa [Nat.zero_add])

/-- **Mapping paths are property chains.** If the aggregate is silent on an attribute mapping and on
the alias at which its path starts, and names tell properties apart in all objects along the path,
then the walk along the names finds an attribute of the declared type. -/
theorem walk_attributeMapping (hattribute : mapping.attributes[i]? = some part)
    (hsilent : SilentAt (m.checkAggregate a) (.attributeMapping entity i))
    (halias : ∀ j d, mapping.aliases[j]? = some d → part.path.head = .declared d.name →
      SilentAt (m.checkAggregate a) (.aliasDeclaration entity j))
    (hapart : ∀ o ∈ m.along mapped (mapping.pathReferences part.path), m.NamesApart o) :
    let chain := m.referenceNames (mapping.pathReferences part.path) ++
      [part.path.attributeName]
    (m.walk mapped chain).value = .ok (.primitive part.type) ∧
      (m.InRange → (m.walk mapped chain).misses = []) := by
  obtain ⟨leaf, start, hstart, ⟨owner, hfollows, hleaf⟩, htype⟩ : ∃ leaf, m.MapsLeaf mapped
      (m.checkAliases entity mapped 0 [] mapping.aliases).value part leaf := by
    refine exists_mapsLeaf_of_silent fun f hf => hsilent f ?_
    refine mem_checkAggregate_of_part hentity hmapping hmapped rfl (.inr ?_)
    exact mem_checkAttributeMappings_of_path hattribute (by rwa [Nat.zero_add])
  have hpath : m.Follows mapped (mapping.pathReferences part.path) owner := by
    unfold EntityMapping.pathReferences
    cases hhead : part.path.head with
    | root =>
      rw [hhead] at hstart
      cases hstart
      exact hfollows
    | declared name =>
      rw [hhead, pathStart_checkAliases (.domainObject entity)] at hstart
      obtain ⟨d, hd, rfl⟩ := Option.map_eq_some_iff.mp hstart
      obtain ⟨j, hj⟩ := List.getElem?_of_mem (List.mem_reverse.mp (List.mem_of_find?_eq_some hd))
      obtain rfl : d.name = name := by simpa using List.find?_some hd
      dsimp only
      rw [hd]
      exact (follows_of_silent_alias hentity hmapping hmapped hj (halias j d hj hhead) _).append
        hfollows
  refine ⟨?_, fun hm => ?_⟩
  · rw [walk_of_follows hpath hleaf hapart, htype]
  · exact (finds_walk hm ((mapping_inRange hm hmapping).entity mapped hmapped) _).misses_eq

end

/-- The mapping takes the mail of the client's contact; so does the chain contact, mail. -/
theorem walk_attributeMapping_mail :
    let m := contactedClients .none ⟨"mail", "String", .declared "c", [], "mail"⟩
    ∃ mapping part, (m.object ⟨2⟩).value.mapping? = some mapping ∧
      mapping.attributes[1]? = some part ∧
      m.referenceNames (mapping.pathReferences part.path) ++ [part.path.attributeName] =
        ["contact", "mail"] ∧
      (m.walk ⟨0⟩ ["contact", "mail"]).value = .ok (.primitive "String") ∧
      (m.walk ⟨0⟩ ["contact", "mail"]).misses = [] := by
  intro m
  have clean : (m.checkAggregate ⟨1⟩).findings = [] := by decide
  have silent : ∀ node, SilentAt (m.checkAggregate ⟨1⟩) node := by simp [SilentAt, clean]
  have apart : ∀ o ∈ m.along ⟨0⟩ [⟨0⟩], m.NamesApart o := by decide
  have linked : m.Linked := by decide
  obtain ⟨found, total⟩ := walk_attributeMapping (m := m) (a := ⟨1⟩) (i := 1)
    (List.mem_singleton.mpr rfl) rfl rfl rfl (silent _) (fun _ _ _ _ => silent _) apart
  exact ⟨_, _, rfl, rfl, rfl, found, total (linked_iff_inRange.mp linked)⟩

/-- **Silence on the attribute mapping alone is not enough.** The alias steps over a collection,
which is reported at the alias and skipped. So the path ends in the client, and the chain stops. -/
theorem walk_skipped_alias :
    let m := contactedClients .list ⟨"mail", "String", .declared "c", [], "clientId"⟩
    ∃ mapping part, ⟨2⟩ ∈ (m.aggregate ⟨1⟩).value.objects ∧
      (m.object ⟨2⟩).value.mapping? = some mapping ∧ mapping.entity = some ⟨0⟩ ∧
      mapping.attributes[1]? = some part ∧
      SilentAt (m.checkAggregate ⟨1⟩) (.attributeMapping ⟨2⟩ 1) ∧
      (∀ o ∈ m.along ⟨0⟩ (mapping.pathReferences part.path), m.NamesApart o) ∧
      (m.walk ⟨0⟩ (m.referenceNames (mapping.pathReferences part.path) ++
        [part.path.attributeName])).value = .error 1 := by
  intro m
  have silent : SilentAt (m.checkAggregate ⟨1⟩) (.attributeMapping ⟨2⟩ 1) := by decide
  have apart : ∀ o ∈ m.along ⟨0⟩ [⟨0⟩], m.NamesApart o := by decide
  exact ⟨_, _, List.mem_singleton.mpr rfl, rfl, rfl, rfl, silent, apart, rfl⟩

end Model

end DomainModel
