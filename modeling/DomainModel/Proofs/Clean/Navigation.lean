import DomainModel.Model.Navigation
import Mathlib.Data.List.Nodup

/-! # What look-ups find

The values of the look-ups that the rules about other contexts rely on, said without a search: what
it takes for an aggregate to list an entity, which attribute a name finds, which key the root of an
aggregate has, which map a context is looked up on, and what that map declares. -/

namespace DomainModel

/-- A handle inside an arena is one of the arena's handles. -/
theorem Handle.mem_firsts {arena : Arena} {n : Nat} {h : Handle arena} (hh : h.index < n) :
    h ∈ Handle.firsts n :=
  List.mem_map.mpr ⟨h.index, List.mem_range.mpr hh, ofIndex_index h⟩

/-- A search by a key that tells the items apart finds the item of the key. -/
theorem find?_eq_some_iff_of_inj {α : Type} {f : α → String} {as : List α}
    (hinj : ∀ a ∈ as, ∀ b ∈ as, f a = f b → a = b) {key : String} {a : α} :
    as.find? (fun b => f b == key) = some a ↔ a ∈ as ∧ f a = key := by
  constructor
  · intro h
    exact ⟨List.mem_of_find?_eq_some h, by simpa using List.find?_some h⟩
  · rintro ⟨ha, rfl⟩
    cases hfind : as.find? fun b => f b == f a with
    | none =>
      have hmiss := List.find?_eq_none.mp hfind a ha
      simp at hmiss
    | some b =>
      have hkey : f b = f a := by simpa using List.find?_some hfind
      rw [hinj b (List.mem_of_find?_eq_some hfind) a ha hkey]

/-- A search with one hit at most does not depend on the order. -/
theorem find?_perm_of_unique {α : Type} {p : α → Bool} {as' as : List α} (h : as'.Perm as)
    (hone : ∀ a ∈ as, ∀ b ∈ as, p a = true → p b = true → a = b) : as'.find? p = as.find? p := by
  cases hfind : as.find? p with
  | none =>
    rw [List.find?_eq_none] at hfind ⊢
    exact fun a ha => hfind a (h.mem_iff.mp ha)
  | some a =>
    have ha := List.mem_of_find?_eq_some hfind
    cases hfind' : as'.find? p with
    | none =>
      have hmiss := List.find?_eq_none.mp hfind' a (h.mem_iff.mpr ha)
      exact absurd (List.find?_some hfind) hmiss
    | some b =>
      have hb := h.mem_iff.mp (List.mem_of_find?_eq_some hfind')
      rw [hone b hb a ha (List.find?_some hfind') (List.find?_some hfind)]

/-- A search by a key that tells the items apart has one hit at most. -/
theorem find?_perm_of_inj {α : Type} {f : α → String} {as' as : List α} (h : as'.Perm as)
    (hinj : ∀ a ∈ as, ∀ b ∈ as, f a = f b → a = b) (key : String) :
    as'.find? (fun a => f a == key) = as.find? (fun a => f a == key) := by
  refine find?_perm_of_unique h fun a ha b hb hkey hkey' => hinj a ha b hb ?_
  rw [eq_of_beq hkey, eq_of_beq hkey']

namespace Model

variable (m : Model)

/-! ### Entities and attributes -/

theorem listsEntity_iff (a : AggregateId) (o : ObjectId) :
    (m.listsEntity a o).value = true ↔
      o ∈ (m.aggregate a).value.objects ∧ (m.object o).value.isEntity = true := by
  by_cases h : o ∈ (m.aggregate a).value.objects <;> simp [listsEntity, h]

theorem value_attributeByName (o : ObjectId) (name : String) :
    (m.attributeByName o name).value =
      (m.object o).value.attributes.find? fun b => (m.attributeOf b).value.name == name := by
  simp [attributeByName]

theorem value_referenceByName (o : ObjectId) (name : String) :
    (m.referenceByName o name).value =
      (m.object o).value.references.find? fun r => (m.reference r).value.name == name := by
  simp [referenceByName]

/-- A name finds one of the object's own attributes, and one of that name. -/
theorem attributeByName_some {o : ObjectId} {name : String} {b : AttributeId}
    (h : (m.attributeByName o name).value = some b) :
    b ∈ (m.object o).value.attributes ∧ (m.attributeOf b).value.name = name := by
  rw [value_attributeByName] at h
  have hname := List.find?_some h
  exact ⟨List.mem_of_find?_eq_some h, by simpa using hname⟩

/-- The names of an object's attributes. -/
def attributeNames (o : ObjectId) : List String :=
  (m.object o).value.attributes.map fun b => (m.attributeOf b).value.name

/-- If the names are distinct, an attribute is the one that its name finds. -/
theorem attributeByName_name {o : ObjectId} {b c : AttributeId}
    (hnames : (m.attributeNames o).Nodup) (hb : b ∈ (m.object o).value.attributes)
    (h : (m.attributeByName o (m.attributeOf b).value.name).value = some c) : c = b := by
  obtain ⟨hc, hname⟩ := m.attributeByName_some h
  exact List.inj_on_of_nodup_map hnames hc hb hname

theorem rootKey_eq_some {a : AggregateId} {root : ObjectId} {key : AttributeId} :
    (m.rootKey a).value = some (root, key) ↔
      (m.rootEntity a).value = some root ∧ (m.keyAttribute root).value = some key := by
  rw [rootKey, Lookup.value_bind]
  cases (m.rootEntity a).value with
  | none => simp
  | some r =>
    simp only [Lookup.value_bind, Lookup.value_pure, Option.map_eq_some_iff, Prod.mk.injEq,
      Option.some.injEq]
    constructor
    · rintro ⟨k, hk, rfl, rfl⟩
      exact ⟨rfl, hk⟩
    · rintro ⟨rfl, hk⟩
      exact ⟨key, hk, rfl, rfl⟩

/-! ### Context maps -/

theorem value_contextMapOf (c : ContextId) :
    (m.contextMapOf c).value =
      m.contextMapIds.find? fun h => (m.contextMap h).value.contexts.contains c := by
  simp [contextMapOf]

/-- The map declares a relationship with the upstream context `up` and the downstream context
`down`. -/
theorem isUpstreamOf_iff (h : ContextMapId) (up down : ContextId) :
    (m.isUpstreamOf h up down).value = true ↔
      ∃ r ∈ (m.contextMap h).value.relationships,
        (m.relationship r).value.upstreamDownstream? = some (some up, some down) := by
  simp [isUpstreamOf]

end Model

end DomainModel
