import Mathlib.Data.List.Perm.Basic
import DomainModel.Proofs.Format.Shape
import DomainModel.Proofs.Json.Record

/-! # What edits leave unchanged

A reader *respects* a shape if it reads the same from a value of that shape before and after an
edit. There is a rule for each kind of field and wrapper, and one for records: whatever the edit is,
the members before and after it are `RecordAlike`. They agree on the tag, each field is absent,
repeated or there once in both of them, and what is there once is the same or edited itself. A
record that is given as an array is no case of its own: to edit an item is to edit the member that
the item stands for (`Edit.zip`). -/

namespace DomainModel

open Json (Members Field)

variable {α : Type} {buffered : Bool} {shape : Shape} {kind : RecordKind} {v v' : Json}

/-! ### Edited values -/

theorem Edit.arrays_or_objects (h : Edit buffered shape v v') :
    (∃ items items', v = .array items ∧ v' = .array items') ∨
      ∃ ms ms', v = .object ms ∧ v' = .object ms' := by
  cases h with
  | permute | insert | inMember => exact Or.inr ⟨_, _, rfl, rfl⟩
  | inItem => exact Or.inl ⟨_, _, rfl, rfl⟩

theorem Json.fits_of_isScalar (hscalar : v.isScalar = true) (hread : v ≠ .unreadable)
    (room : Nat) : v.fits room = true := by
  cases v with
  | array | object => cases hscalar
  | unreadable => exact absurd rfl hread
  | _ => rw [fits]

/-- A value that is buffered can be read before and after an edit, or in neither case. -/
theorem Edit.fits_eq (h : Edit buffered shape v v') (hbuffered : buffered = true) (room : Nat) :
    v'.fits room = v.fits room := by
  induction h generalizing room with
  | permute hperm =>
    rw [Json.fits, Json.fits, Json.allMembersFit_eq, Json.allMembersFit_eq, hperm.symm.all_eq]
  | insert hkey hscalar hread =>
    have hw := Json.fits_of_isScalar hscalar (hread (by rw [hbuffered]; rfl)) (room - 1)
    rw [Json.fits, Json.fits, Json.allMembersFit_eq, Json.allMembersFit_eq]
    simp [hw]
  | inItem _ ih =>
    rw [Json.fits, Json.fits, Json.allFit_eq, Json.allFit_eq]
    simp [ih (by rw [hbuffered]; rfl)]
  | inMember _ ih =>
    rw [Json.fits, Json.fits, Json.allMembersFit_eq, Json.allMembersFit_eq]
    simp [ih (by rw [hbuffered]; rfl)]

/-! ### Fields -/

namespace Json.Members

theorem field_perm {ms ms' : List (String × Json)} (h : ms.Perm ms') (key : String) :
    field ⟨ms'⟩ key = field ⟨ms⟩ key := by
  have hfilter := h.filter (·.1 == key)
  unfold field
  dsimp only
  generalize ms.filter (·.1 == key) = found, ms'.filter (·.1 == key) = found' at hfilter ⊢
  match found, found', hfilter, hfilter.length_eq with
  | [], [], _, _ => rfl
  | [_], [_], hfilter, _ => rw [List.singleton_perm_singleton.mp hfilter]
  | _ :: _ :: _, _ :: _ :: _, _, _ => rfl

variable {before after : List (String × Json)} {key : String}

/-- A member of another key. -/
theorem field_of_ne {other : String} (h : key ≠ other) (v : Json) :
    field ⟨before ++ (key, v) :: after⟩ other = field ⟨before ++ after⟩ other := by
  unfold field
  rw [List.filter_append, List.filter_cons, if_neg (by simpa using h), ← List.filter_append]

/-- What is under a key stands there once, unless the key is repeated. -/
theorem field_self (before after : List (String × Json)) (key : String) :
    (∀ v, field ⟨before ++ (key, v) :: after⟩ key = .once v) ∨
      ∀ v, field ⟨before ++ (key, v) :: after⟩ key = .repeated := by
  unfold field
  simp only [List.filter_append, List.filter_cons, beq_self_eq_true, if_true]
  generalize before.filter (·.1 == key) = earlier
  generalize after.filter (·.1 == key) = later
  match earlier, later with
  | [], [] => exact Or.inl fun _ => rfl
  | [], _ :: _ | [_], _ | _ :: _ :: _, _ => exact Or.inr fun _ => rfl

end Json.Members

/-- What stands under a field before and after an edit. -/
inductive FieldAlike (shape : Shape) : Field → Field → Prop where
  | unchanged (f : Field) : FieldAlike shape f f
  | edited {buffered : Bool} {v v' : Json} (h : Edit buffered shape v v') :
    FieldAlike shape (.once v) (.once v')

/-- Each field is held alike by both. -/
def FieldsAlike (fields : List (String × Shape)) (ms ms' : Members) : Prop :=
  ∀ p ∈ fields, FieldAlike p.2 (ms.field p.1) (ms'.field p.1)

/-- What stands under a key that is a field. -/
theorem Shape.member_field {ms : Members} {p : String × Shape}
    (hp : p ∈ kind.fields (kind.tag ms)) : Shape.member ms p.1 (.record kind) = p.2 := by
  obtain ⟨before, after, hfields⟩ := List.append_of_mem hp
  have hnodup := kind.nodup_fields (kind.tag ms)
  rw [hfields, List.map_append, List.map_cons, List.perm_middle.nodup_iff, List.nodup_cons]
    at hnodup
  have hlookup : (kind.fields (kind.tag ms)).lookup p.1 = some p.2 := by
    refine List.lookup_eq_some_iff.mpr ⟨before, after, hfields, fun other hother => ?_⟩
    refine bne_iff_ne.mpr fun heq => hnodup.1 (List.mem_append_left _ ?_)
    exact List.mem_map.mpr ⟨other, hother, heq.symm⟩
  rw [Shape.member, hlookup, Option.getD_some]

variable {ms ms' : List (String × Json)}

theorem Edit.fieldsAlike (h : Edit buffered (.record kind) (.object ms) (.object ms')) :
    FieldsAlike (kind.fields (kind.tag ⟨ms⟩)) ⟨ms⟩ ⟨ms'⟩ := by
  intro p hp
  cases h with
  | permute hperm =>
    rw [Members.field_perm hperm]
    exact .unchanged _
  | insert hkey =>
    have hne : _ ≠ p.1 := fun heq => hkey (List.mem_map.mpr ⟨p, hp, heq.symm⟩)
    rw [Members.field_of_ne hne]
    exact .unchanged _
  | @inMember _ _ before after key w w' hw =>
    by_cases hkey : key = p.1
    · subst hkey
      rw [Shape.member_field hp] at hw
      -- A repeated field is an error, whatever stands there.
      rcases Members.field_self before after p.1 with honce | hrepeated
      · rw [honce, honce]
        exact .edited hw
      · rw [hrepeated, hrepeated]
        exact .unchanged _
    · rw [Members.field_of_ne hkey, Members.field_of_ne hkey]
      exact .unchanged _

/-- The members that a tagged record buffers fit before and after an edit, or in neither case. -/
theorem Edit.othersFit_eq (h : Edit buffered (.record kind) (.object ms) (.object ms'))
    {keys : List String} (hkeys : kind.directKeys = some keys) (room : Nat) :
    Members.othersFit ⟨ms'⟩ keys room = Members.othersFit ⟨ms⟩ keys room := by
  have hbuffers : ∀ {key}, (!keys.contains key) = true → (buffered || kind.buffers key) = true := by
    intro key hkey
    rw [RecordKind.buffers, hkeys, Option.any_some, hkey, Bool.or_true]
  unfold Members.othersFit
  -- An edit of a member counts only where the member is buffered, and there it is an edit between
  -- values of which both fit or neither.
  cases h with
  | permute hperm => exact (hperm.symm.filter _).all_eq
  | @insert _ _ before after key w hkey hscalar hread =>
    rw [List.filter_append, List.filter_cons, List.filter_append]
    split
    · next hbuffered =>
      have hw := Json.fits_of_isScalar hscalar (hread (hbuffers hbuffered)) room
      simp [hw]
    · rfl
  | @inMember _ _ before after key w w' hw =>
    rw [List.filter_append, List.filter_cons, List.filter_append, List.filter_cons]
    split
    · next hbuffered =>
      have hfits := hw.fits_eq (hbuffers hbuffered) room
      simp [hfits]
    · rfl

/-! ### Readers -/

/-- **The reader does not notice an edit** of a value of this shape. -/
def Respects (shape : Shape) (read : Json → Option α) : Prop :=
  ∀ ⦃buffered : Bool⦄ ⦃v v' : Json⦄, Edit buffered shape v v' → read v' = read v

namespace Respects

variable {read : Json → Option α}

/-- A reader of scalars. -/
theorem scalar (harray : ∀ items, read (.array items) = none)
    (hobject : ∀ ms, read (.object ms) = none) : Respects shape read := by
  intro _ v v' h
  rcases h.arrays_or_objects with ⟨items, items', rfl, rfl⟩ | ⟨ms, ms', rfl, rfl⟩
  · rw [harray, harray]
  · rw [hobject, hobject]

theorem string : Respects .plain Json.toString? := scalar (fun _ => rfl) fun _ => rfl

theorem tag (numbered : List String) : Respects .plain (Json.toTag? numbered) :=
  scalar (fun _ => rfl) fun _ => rfl

theorem bool : Respects .plain Json.toBool? := scalar (fun _ => rfl) fun _ => rfl

theorem handle {arena : Arena} :
    Respects .plain (Json.toHandle? : Json → Option (Handle arena)) :=
  scalar (fun _ => rfl) fun _ => rfl

theorem nullable (h : Respects shape read) : Respects shape (Json.nullable read) := by
  intro _ v v' hedit
  have heq := h hedit
  rcases hedit.arrays_or_objects with ⟨items, items', rfl, rfl⟩ | ⟨ms, ms', rfl, rfl⟩
  · exact congrArg (Option.map some) heq
  · exact congrArg (Option.map some) heq

theorem map {β : Type} (h : Respects shape read) (f : α → β) :
    Respects shape fun v => f <$> read v :=
  fun _ _ _ hedit => congrArg (f <$> ·) (h hedit)

theorem list_succ {read : Nat → Json → Option α} {room : Nat} {item : Shape}
    (hshape : ∀ items i, shape.item items i = item) (h : Respects item (read room)) :
    Respects shape (Json.list read (room + 1)) := by
  intro _ v v' hedit
  cases hedit with
  | permute | insert | inMember => rfl
  | inItem hitem =>
    rw [hshape] at hitem
    simp only [Json.list, List.mapM_append, List.mapM_cons, h hitem]

theorem list {read : Nat → Json → Option α} {item : Shape}
    (h : ∀ room, Respects item (read room)) : ∀ room, Respects (.list item) (Json.list read room)
  | 0 => fun _ _ _ _ => rfl
  | room + 1 => list_succ (fun _ _ => rfl) (h room)

/-- A list without records. -/
theorem plainList {read : Nat → Json → Option α} (h : ∀ room, Respects .plain (read room)) :
    ∀ room, Respects .plain (Json.list read room)
  | 0 => fun _ _ _ _ => rfl
  | room + 1 => list_succ (fun _ _ => rfl) (h room)

theorem strings (room : Nat) : Respects .plain (Json.strings room) :=
  plainList (fun _ => string) room

theorem handles {arena : Arena} (room : Nat) :
    Respects .plain (Json.handles room : Json → Option (List (Handle arena))) :=
  plainList (fun _ => handle) room

end Respects

/-! ### Choices -/

theorem Json.choice_of_length {ms : List (String × Json)} (h : ms.length ≠ 1) (room : Nat) :
    choice room (.object ms) = none := by
  unfold choice
  split
  · next heq => cases heq
  · next heq =>
    cases heq
    exact absurd rfl h
  · rfl

/-- Choices are no records: an edit leaves the name, and what is under it may be edited itself. -/
theorem Edit.choice (h : Edit buffered shape v v') (hshape : ∀ kind, shape ≠ .record kind)
    (room : Nat) :
    Json.choice room v' = Json.choice room v ∨
      ∃ name w w', Json.choice room v = some (name, some w) ∧
        Json.choice room v' = some (name, some w') ∧
        ∃ inner, Edit inner (shape.member ⟨[(name, w)]⟩ name) w w' := by
  cases room with
  | zero =>
    refine Or.inl ?_
    rcases h.arrays_or_objects with ⟨_, _, rfl, rfl⟩ | ⟨_, _, rfl, rfl⟩ <;> simp [Json.choice]
  | succ room =>
    cases h with
    | @permute _ _ ms ms' hperm =>
      refine Or.inl ?_
      by_cases hone : ms.length = 1
      · obtain ⟨m, rfl⟩ := List.length_eq_one_iff.mp hone
        rw [List.singleton_perm.mp hperm]
      · rw [Json.choice_of_length hone, Json.choice_of_length (by rwa [← hperm.length_eq])]
    | insert => exact absurd rfl (hshape _)
    | inItem => exact Or.inl rfl
    | @inMember _ _ before after name w w' hw =>
      by_cases hone : before = [] ∧ after = []
      · obtain ⟨rfl, rfl⟩ := hone
        exact Or.inr ⟨name, w, w', rfl, rfl, _, hw⟩
      · have hlength : ∀ w, (before ++ (name, w) :: after).length ≠ 1 := by
          intro w hlength
          rw [List.length_append, List.length_cons] at hlength
          exact hone ⟨List.eq_nil_of_length_eq_zero (by omega),
            List.eq_nil_of_length_eq_zero (by omega)⟩
        rw [Json.choice_of_length (hlength w), Json.choice_of_length (hlength w')]
        exact Or.inl rfl

/-- No record is in it, so an edit leaves an empty object empty. -/
theorem Edit.carriesNothing_eq (h : Edit buffered .plain v v') (inTagged : Bool) :
    Json.carriesNothing inTagged (some v') = Json.carriesNothing inTagged (some v) := by
  cases h with
  | @permute _ _ ms ms' hperm =>
    match ms, ms', hperm.length_eq with
    | [], [], _ => rfl
    | _ :: _, _ :: _, _ => rfl
  | inItem => rfl
  | @inMember _ _ before =>
    cases before with
    | nil => rfl
    | cons => rfl

/-- A reader of choices, of which each reads what is under its name. -/
theorem Respects.choice {read : String × Option Json → Option α} {room : Nat}
    (hshape : ∀ kind, shape ≠ .record kind)
    (h : ∀ {buffered name v v'}, Edit buffered (shape.member ⟨[(name, v)]⟩ name) v v' →
      read (name, some v') = read (name, some v)) :
    Respects shape fun v => Json.choice room v >>= read := by
  intro _ v v' hedit
  rcases hedit.choice hshape room with heq | ⟨name, w, w', hv, hv', _, hinner⟩
  · simp only [heq]
  · simp only [hv, hv', Option.bind_eq_bind, Option.bind_some]
    exact h hinner

theorem Respects.word [Vocabulary α] (inTagged : Bool) (room : Nat) :
    Respects .plain (Json.word inTagged room : Json → Option α) := by
  refine .choice (fun _ => Shape.noConfusion) fun hedit => ?_
  simp only [hedit.carriesNothing_eq]

theorem Respects.words [Vocabulary α] (inTagged : Bool) (room : Nat) :
    Respects .plain (Json.list (Json.word inTagged) room : Json → Option (List α)) :=
  plainList (word inTagged) room

/-! ### Records -/

section Fields

variable {fields : List (String × Shape)} {ms ms' : Members} {key : String}
  {read : Json → Option α}

namespace FieldsAlike

theorem required (h : FieldsAlike fields ms ms') (hkey : (key, shape) ∈ fields)
    (hread : Respects shape read) : ms'.required key read = ms.required key read := by
  have hfield := h _ hkey
  unfold Members.required
  generalize ms.field key = f, ms'.field key = f' at hfield ⊢
  cases hfield with
  | unchanged => rfl
  | edited hedit => exact hread hedit

theorem withDefault (h : FieldsAlike fields ms ms') {default : α} (hkey : (key, shape) ∈ fields)
    (hread : Respects shape read) :
    ms'.withDefault key default read = ms.withDefault key default read := by
  have hfield := h _ hkey
  unfold Members.withDefault
  generalize ms.field key = f, ms'.field key = f' at hfield ⊢
  cases hfield with
  | unchanged => rfl
  | edited hedit => exact hread hedit

theorem optional (h : FieldsAlike fields ms ms') (hkey : (key, shape) ∈ fields)
    (hread : Respects shape read) : ms'.optional key read = ms.optional key read :=
  h.withDefault hkey hread.nullable

end FieldsAlike

end Fields

/-- **The members of a record before and after an edit.** -/
structure RecordAlike (kind : RecordKind) (ms ms' : Members) : Prop where
  tag_eq : kind.tag ms' = kind.tag ms
  fields : FieldsAlike (kind.fields (kind.tag ms)) ms ms'
  othersFit_eq : ∀ {keys}, kind.directKeys = some keys → ∀ room,
    ms'.othersFit keys room = ms.othersFit keys room

/-- The tag is a field without parts, and one that all records of the kind have. -/
theorem Edit.recordAlike (h : Edit buffered (.record kind) (.object ms) (.object ms')) :
    RecordAlike kind ⟨ms⟩ ⟨ms'⟩ where
  tag_eq := by
    have hfield : ∀ key, kind.tagKey = some key → (key, .plain) ∈ kind.ownFields := by
      cases kind <;> decide
    unfold RecordKind.tag
    cases htag : kind.tagKey with
    | none => rfl
    | some key => exact h.fieldsAlike.required (List.mem_append_left _ (hfield key htag)) (.tag _)
  fields := h.fieldsAlike
  othersFit_eq := h.othersFit_eq

namespace RecordAlike

variable {ms ms' : Members}

theorem own (h : RecordAlike kind ms ms') : FieldsAlike kind.ownFields ms ms' :=
  fun p hp => h.fields p (List.mem_append_left _ hp)

/-- A reader may go on by the tag. -/
theorem bind_tag (h : RecordAlike kind ms ms') {f f' : String → Option α}
    (hread : ∀ tag, FieldsAlike (kind.fields (some tag)) ms ms' → f' tag = f tag) :
    (kind.tag ms').bind f' = (kind.tag ms).bind f := by
  have halike := h.fields
  rw [h.tag_eq]
  cases htag : kind.tag ms with
  | none => rfl
  | some tag =>
    rw [htag] at halike
    exact hread tag halike

end RecordAlike

/-! ### Arrays of fields -/

/-- Keys and items side by side, split at an item that stands for a field. -/
theorem zip_eq_append {fields : List (String × Shape)} {before : List Json} {p : String × Shape}
    (hp : fields[before.length]? = some p) (after : List Json) :
    ∃ left right, ∀ v,
      (fields.map (·.1)).zip (before ++ v :: after) = left ++ (p.1, v) :: right := by
  induction before generalizing fields with
  | nil =>
    cases fields with
    | nil => cases hp
    | cons q rest =>
      cases hp
      exact ⟨[], (rest.map (·.1)).zip after, fun _ => rfl⟩
  | cons w before ih =>
    cases fields with
    | nil => cases hp
    | cons q rest =>
      have hrest : rest[before.length]? = some p := by simpa using hp
      obtain ⟨left, right, hzip⟩ := ih hrest
      exact ⟨(q.1, w) :: left, right, fun v => congrArg ((q.1, w) :: ·) (hzip v)⟩

theorem Json.Members.field_cons_self {key : String} {rest : List (String × Json)}
    (h : ∀ m ∈ rest, m.1 ≠ key) (v : Json) : field ⟨(key, v) :: rest⟩ key = .once v := by
  have hnone : rest.filter (·.1 == key) = [] :=
    List.filter_eq_nil_iff.mpr fun m hm => by simpa using h m hm
  unfold field
  rw [List.filter_cons, if_pos (beq_self_eq_true key), hnone]

namespace RecordKind

/-- The tag comes first in an array, so the members that its items stand for have the same tag. -/
theorem tag_zip (hkind : kind.isPositional = true) (tag : Option String) (items : List Json) :
    kind.tag ⟨((kind.fields tag).map (·.1)).zip items⟩ = kind.itemsTag items := by
  have hfirst : ∀ key, kind.tagKey = some key → kind.ownFields.head? = some (key, .plain) := by
    cases kind <;> simp_all [tagKey, ownFields, isPositional]
  unfold RecordKind.tag itemsTag
  cases htag : kind.tagKey with
  | none => rfl
  | some key =>
    obtain ⟨rest, hrest⟩ := List.head?_eq_some_iff.mp (hfirst key htag)
    have hnodup := kind.nodup_fields tag
    rw [fields, hrest, List.cons_append, List.map_cons] at hnodup ⊢
    cases items with
    | nil => rfl
    | cons v items =>
      have hne : ∀ m ∈ (((rest ++ tag.elim [] kind.variantFields).map (·.1)).zip items),
          m.1 ≠ key := fun m hm heq =>
        (List.nodup_cons.mp hnodup).1 (heq ▸ (List.of_mem_zip hm).1)
      rw [Option.bind_some, Option.bind_some, List.zip_cons_cons, List.head?_cons,
        Option.bind_some, Members.tag, Members.required, Members.field_cons_self hne]

/-- The members that the items of an array stand for have the fields of the array. -/
theorem fields_zip {items : List Json} (hne : kind.itemFields items ≠ []) :
    kind.fields (kind.tag ⟨((kind.itemFields items).map (·.1)).zip items⟩) =
      kind.itemFields items := by
  unfold itemFields at hne ⊢
  split at hne
  · next hkind => rw [if_pos hkind, tag_zip hkind]
  · exact absurd rfl hne

end RecordKind

variable {items items' : List Json}

theorem Edit.length_eq (h : Edit buffered shape (.array items) (.array items')) :
    items'.length = items.length := by
  cases h
  simp

/-- An edit of the tag leaves no tag. -/
theorem Edit.itemsTag_eq (h : Edit buffered shape (.array items) (.array items'))
    (kind : RecordKind) : kind.itemsTag items' = kind.itemsTag items := by
  cases h with
  | @inItem _ _ before after v v' hv =>
    unfold RecordKind.itemsTag
    cases before with
    | nil =>
      have htag : Json.toTag? kind.numberedTags v' = Json.toTag? kind.numberedTags v := by
        rcases hv.arrays_or_objects with ⟨_, _, rfl, rfl⟩ | ⟨_, _, rfl, rfl⟩ <;> rfl
      simp only [List.nil_append, List.head?_cons, Option.bind_some, htag]
    | cons => rfl

/-- **An edit of an array of fields is an edit of the members that it stands for.** -/
theorem Edit.zip (h : Edit buffered (.record kind) (.array items) (.array items'))
    (hlength : items.length ≤ (kind.itemFields items).length) :
    Edit buffered (.record kind) (.object (((kind.itemFields items).map (·.1)).zip items))
      (.object (((kind.itemFields items).map (·.1)).zip items')) := by
  cases h with
  | @inItem _ _ before after v v' hv =>
    have hlt : before.length < (kind.itemFields (before ++ v :: after)).length := by
      rw [List.length_append, List.length_cons] at hlength
      omega
    have hp := List.getElem?_eq_getElem hlt
    obtain ⟨left, right, hzip⟩ := zip_eq_append hp after
    have hfields := RecordKind.fields_zip (List.ne_nil_of_length_pos (Nat.zero_lt_of_lt hlt))
    rw [hzip] at hfields
    rw [Shape.item, Shape.buffersItem, hp] at hv
    rw [hzip, hzip]
    refine .inMember ?_
    rw [Shape.member_field (by rw [hfields]; exact List.getElem_mem hlt)]
    exact hv

namespace Respects

variable {read : Nat → Members → Option α} {keys : List String} {room : Nat}
  {layout? : List Json → Option Json.Layout}

/-- **Records:** an array has the layout that the fields of the record give it, and its tag alone
decides which one that is. -/
theorem recordBy_succ
    (hlayout : ∀ items layout, layout? items = some layout →
      layout.fields = (kind.itemFields items).map (·.1))
    (htag : ∀ {items items'}, kind.itemsTag items' = kind.itemsTag items →
      layout? items' = layout? items)
    (h : ∀ {ms ms'}, RecordAlike kind ms ms' → read room ms' = read room ms) :
    Respects (.record kind) (Json.recordBy layout? read (room + 1)) := by
  intro _ v v' hedit
  rcases hedit.arrays_or_objects with ⟨items, items', rfl, rfl⟩ | ⟨ms, ms', rfl, rfl⟩
  · simp only [Json.recordBy, htag (hedit.itemsTag_eq kind)]
    cases hl : layout? items with
    | none => rfl
    | some layout =>
      simp only [Option.bind_eq_bind, Option.bind_some, Json.Layout.members?, hedit.length_eq]
      split
      · next hlength =>
        have hfields := hlayout items layout hl
        have hzip := hedit.zip (by rw [hfields, List.length_map] at hlength; exact hlength.2)
        rw [hfields]
        exact h hzip.recordAlike
      · rfl
  · exact h hedit.recordAlike

/-- A record that is read whatever else is in it. -/
theorem record {layout : Json.Layout}
    (hlayout : ∀ items, layout.fields = (kind.itemFields items).map (·.1))
    (h : ∀ {room ms ms'}, FieldsAlike kind.ownFields ms ms' → read room ms' = read room ms) :
    ∀ room, Respects (.record kind) (Json.record layout read room)
  | 0 => fun _ _ _ _ => rfl
  | _ + 1 => recordBy_succ (fun items _ heq => by cases heq; exact hlayout items) (fun _ => rfl)
    fun halike => h halike.own

/-- A record that is no array, read if the members that it buffers fit. -/
theorem keyed_succ (hkeys : kind.directKeys = some keys)
    (h : ∀ {ms ms'}, RecordAlike kind ms ms' → read room ms' = read room ms) :
    Respects (.record kind) (Json.keyed
      (fun room ms => if ms.othersFit keys room then read room ms else none) (room + 1)) :=
  recordBy_succ (fun _ _ heq => nomatch heq) (fun _ => rfl)
    fun halike => by rw [halike.othersFit_eq hkeys, h halike]

theorem keyed (hkeys : kind.directKeys = some keys)
    (h : ∀ {room ms ms'}, RecordAlike kind ms ms' → read room ms' = read room ms) :
    ∀ room, Respects (.record kind) (Json.keyed
      (fun room ms => if ms.othersFit keys room then read room ms else none) room)
  | 0 => fun _ _ _ _ => rfl
  | _ + 1 => keyed_succ hkeys h

theorem tagged_succ {layout? : String → Option Json.Layout} (hkeys : kind.directKeys = some [])
    (hlayout : ∀ tag layout, layout? tag = some layout →
      layout.fields = (kind.fields (some tag)).map (·.1))
    (h : ∀ {ms ms'}, RecordAlike kind ms ms' → read room ms' = read room ms) :
    Respects (.record kind) (Json.tagged kind.numberedTags layout? read (room + 1)) := by
  have hkind : kind.isPositional = true ∧ kind.tagKey.isSome = true := by
    cases kind <;> simp_all [RecordKind.directKeys, RecordKind.isPositional, RecordKind.tagKey,
      DomainObject.sharedFields]
  have htagged : ∀ items, Json.taggedLayout? kind.numberedTags layout? items =
      (kind.itemsTag items).bind layout? := by
    intro items
    obtain ⟨key, hkey⟩ := Option.isSome_iff_exists.mp hkind.2
    simp [Json.taggedLayout?, RecordKind.itemsTag, hkey, Option.bind_assoc]
  refine recordBy_succ (fun items layout hl => ?_) (fun htag => ?_) fun halike => ?_
  · rw [htagged] at hl
    obtain ⟨tag, htag, hl⟩ := Option.bind_eq_some_iff.mp hl
    rw [hlayout tag layout hl, RecordKind.itemFields, if_pos hkind.1, htag]
  · rw [htagged, htagged, htag]
  · rw [halike.othersFit_eq hkeys, h halike]

theorem tagged {layout? : String → Option Json.Layout} (hkeys : kind.directKeys = some [])
    (hlayout : ∀ tag layout, layout? tag = some layout →
      layout.fields = (kind.fields (some tag)).map (·.1))
    (h : ∀ {room ms ms'}, RecordAlike kind ms ms' → read room ms' = read room ms) :
    ∀ room, Respects (.record kind) (Json.tagged kind.numberedTags layout? read room)
  | 0 => fun _ _ _ _ => rfl
  | _ + 1 => tagged_succ hkeys hlayout h

end Respects

end DomainModel
