import DomainModel.Json.Record
import DomainModel.Proofs.Json.Reading

/-! # Written records are read back

A `Codec` is a way to write values together with a reader that reads them back where it has room.
There is one for every kind of field, and a rule for records: what is left to show of a record is
that each of its fields is found under its key. -/

namespace DomainModel.Json

/-! ### Depth -/

mutual

/-- The number of arrays and objects that the value nests. -/
def depth : Json → Nat
  | array items => depthItems items + 1
  | object members => depthMembers members + 1
  | null | bool _ | number _ | string _ | unreadable => 0

def depthItems : List Json → Nat
  | [] => 0
  | v :: vs => max v.depth (depthItems vs)

def depthMembers : List (String × Json) → Nat
  | [] => 0
  | (_, v) :: ms => max v.depth (depthMembers ms)

end

theorem depthItems_le {items : List Json} {room : Nat} :
    depthItems items ≤ room ↔ ∀ v ∈ items, v.depth ≤ room := by
  induction items with
  | nil => simp [depthItems]
  | cons v vs ih => rw [depthItems, Nat.max_le, ih, List.forall_mem_cons]

theorem depthMembers_le {members : List (String × Json)} {room : Nat} :
    depthMembers members ≤ room ↔ ∀ m ∈ members, m.2.depth ≤ room := by
  induction members with
  | nil => simp [depthMembers]
  | cons m ms ih => rw [depthMembers, Nat.max_le, ih, List.forall_mem_cons]

theorem depth_array_le {items : List Json} {room : Nat} :
    (array items).depth ≤ room ↔ ∃ r, room = r + 1 ∧ ∀ v ∈ items, v.depth ≤ r := by
  rw [depth]
  constructor
  · intro h
    exact ⟨room - 1, by omega, depthItems_le.mp (by omega)⟩
  · rintro ⟨r, rfl, h⟩
    exact Nat.succ_le_succ (depthItems_le.mpr h)

theorem depth_object_le {members : List (String × Json)} {room : Nat} :
    (object members).depth ≤ room ↔ ∃ r, room = r + 1 ∧ ∀ m ∈ members, m.2.depth ≤ r := by
  rw [depth]
  constructor
  · intro h
    exact ⟨room - 1, by omega, depthMembers_le.mp (by omega)⟩
  · rintro ⟨r, rfl, h⟩
    exact Nat.succ_le_succ (depthMembers_le.mpr h)

theorem allFit_eq {items : List Json} {room : Nat} :
    allFit room items = items.all (·.fits room) := by
  induction items with
  | nil => rfl
  | cons v vs ih => simp [allFit, ih]

theorem allMembersFit_eq {members : List (String × Json)} {room : Nat} :
    allMembersFit room members = members.all (·.2.fits room) := by
  induction members with
  | nil => rfl
  | cons m ms ih => simp [allMembersFit, ih]

/-- A plain value fits where it does not nest too deep. -/
theorem Plain.fits {v : Json} (h : Plain v) {room : Nat} (hdepth : v.depth ≤ room) :
    v.fits room = true := by
  induction h generalizing room with
  | null | bool _ | string _ | ofNat _ => rfl
  | array _ ih =>
    obtain ⟨r, rfl, hr⟩ := depth_array_le.mp hdepth
    rw [Json.fits, allFit_eq]
    simp only [Nat.zero_lt_succ, decide_true, Bool.true_and, List.all_eq_true]
    exact fun v hv => ih v hv (hr v hv)
  | object _ ih =>
    obtain ⟨r, rfl, hr⟩ := depth_object_le.mp hdepth
    rw [Json.fits, allMembersFit_eq]
    simp only [Nat.zero_lt_succ, decide_true, Bool.true_and, List.all_eq_true]
    exact fun m hm => ih m hm (hr m hm)

/-! ### Codecs -/

variable {α : Type}

/-- **What is written is plain, and is read back** where there is room for it. -/
structure Codec (write : α → Json) (read : Nat → Json → Option α) : Prop where
  plain : ∀ a, Plain (write a)
  read_write : ∀ a room, (write a).depth ≤ room → read room (write a) = some a

theorem nullable_of_ne_null {read : Json → Option α} {v : Json} {a : α} (hne : v ≠ .null)
    (hv : read v = some a) : nullable read v = some (some a) := by
  unfold nullable
  split
  · exact absurd rfl hne
  · rw [hv]
    rfl

namespace Codec

variable {write : α → Json} {read : Nat → Json → Option α}

theorem string : Codec Json.string fun _ => toString? where
  plain := .string
  read_write _ _ _ := rfl

theorem bool : Codec Json.bool fun _ => toBool? where
  plain := .bool
  read_write _ _ _ := rfl

theorem handle {arena : Arena} :
    Codec (ofHandle : Handle arena → Json) fun _ => toHandle? where
  plain h := .ofNat h.index_lt
  read_write h _ _ := by
    simp [toHandle?, ofHandle, Json.ofNat, toNat?, - Nat.toString_eq_repr, natOfLexeme?_toString]

theorem word [Vocabulary α] (inTagged : Bool) :
    Codec (ofWord : α → Json) (Json.word inTagged) where
  plain _ := .string _
  read_write a room _ := by
    simp [Json.word, ofWord, choice, carriesNothing, Vocabulary.ofWord?_word]

theorem mapM_read (c : Codec write read) {as : List α} {room : Nat}
    (h : ∀ a ∈ as, (write a).depth ≤ room) : (as.map write).mapM (read room) = some as := by
  induction as with
  | nil => rfl
  | cons a as ih =>
    rw [List.map_cons, List.mapM_cons, c.read_write a room (h a (by simp)),
      ih fun b hb => h b (by simp [hb])]
    rfl

theorem list (c : Codec write read) : Codec (ofList write) (Json.list read) where
  plain as := .array (by simpa [ofList] using fun a _ => c.plain a)
  read_write as room h := by
    obtain ⟨r, rfl, hr⟩ := depth_array_le.mp h
    exact c.mapM_read (List.forall_mem_map.mp hr)

theorem strings : Codec (ofList Json.string) Json.strings := list string

theorem handles {arena : Arena} : Codec (ofList (ofHandle : Handle arena → Json)) Json.handles :=
  list handle

theorem option (c : Codec write read) (hne : ∀ a, write a ≠ .null) :
    Codec (ofOption write) fun room => nullable (read room) where
  plain o := by
    cases o with
    | none => exact .null
    | some a => exact c.plain a
  read_write o room h := by
    cases o with
    | none => rfl
    | some a => exact nullable_of_ne_null (hne a) (c.read_write a room h)

end Codec

theorem ofHandle_ne_null {arena : Arena} (h : Handle arena) : ofHandle h ≠ .null := by
  rintro ⟨⟩

theorem ofWord_ne_null [Vocabulary α] (a : α) : ofWord a ≠ .null := by
  rintro ⟨⟩

theorem string_ne_null (s : String) : string s ≠ .null := by
  rintro ⟨⟩

theorem object_ne_null (members : List (String × Json)) : object members ≠ .null := by
  rintro ⟨⟩

/-- An optional handle. -/
theorem Codec.link {arena : Arena} :
    Codec (ofOption (ofHandle : Handle arena → Json)) fun _ => nullable toHandle? :=
  option handle ofHandle_ne_null

theorem Codec.optionalString : Codec (ofOption Json.string) fun _ => nullable toString? :=
  option string string_ne_null

/-! ### Fields -/

/-- The object holds a value once under a key, and there is room for it. -/
structure Members.Has (ms : Members) (room : Nat) (key : String) (v : Json) : Prop where
  field_eq : ms.field key = .once v
  depth_le : v.depth ≤ room

theorem Members.field_of_mem {ms : Members} (hkeys : (ms.entries.map (·.1)).Nodup)
    {m : String × Json} (hm : m ∈ ms.entries) : ms.field m.1 = .once m.2 := by
  obtain ⟨entries⟩ := ms
  have hfilter : entries.filter (·.1 == m.1) = [m] := by
    induction entries with
    | nil => cases hm
    | cons first rest ih =>
      rw [List.map_cons, List.nodup_cons] at hkeys
      rcases List.mem_cons.mp hm with rfl | hm
      · have hnone : rest.filter (·.1 == m.1) = [] := by
          rw [List.filter_eq_nil_iff]
          intro other hother heq
          exact hkeys.1 (List.mem_map.mpr ⟨other, hother, beq_iff_eq.mp heq⟩)
        rw [List.filter_cons, if_pos (beq_self_eq_true _), hnone]
      · have hne : ¬ (first.1 == m.1) = true := by
          intro heq
          exact hkeys.1 (List.mem_map.mpr ⟨m, hm, (beq_iff_eq.mp heq).symm⟩)
        rw [List.filter_cons, if_neg hne]
        exact ih hkeys.2 hm
  unfold field
  rw [hfilter]

namespace Members.Has

variable {ms : Members} {room : Nat} {key : String} {v : Json} {read : Json → Option α} {a : α}

theorem required (h : ms.Has room key v) (hv : read v = some a) :
    ms.required key read = some a := by
  unfold Members.required
  rw [h.field_eq]
  exact hv

theorem withDefault (h : ms.Has room key v) {default : α} (hv : read v = some a) :
    ms.withDefault key default read = some a := by
  unfold Members.withDefault
  rw [h.field_eq]
  exact hv

theorem optional_some (h : ms.Has room key v) (hne : v ≠ .null) (hv : read v = some a) :
    ms.optional key read = some (some a) :=
  h.withDefault (nullable_of_ne_null hne hv)

theorem optional_none (h : ms.Has room key .null) : ms.optional key read = some none :=
  h.withDefault rfl

end Members.Has

namespace Codec

variable {write : α → Json} {read : Nat → Json → Option α} {ms : Members} {room : Nat}
  {key : String}

theorem required (c : Codec write read) {a : α} (h : ms.Has room key (write a)) :
    ms.required key (read room) = some a :=
  h.required (c.read_write a room h.depth_le)

theorem withDefault (c : Codec write read) {a default : α} (h : ms.Has room key (write a)) :
    ms.withDefault key default (read room) = some a :=
  h.withDefault (c.read_write a room h.depth_le)

theorem optional (c : Codec (ofOption write) fun room => nullable (read room)) {o : Option α}
    (h : ms.Has room key (ofOption write o)) : ms.optional key (read room) = some o :=
  c.withDefault h

theorem tag {name : String} (h : ms.Has room key (.string name)) (numbered : List String) :
    ms.tag numbered key = some name :=
  h.required rfl

end Codec

/-! ### Records -/

/-- **Members from which a value is read:** the keys differ, the values are plain, and the reader
finds what it needs. -/
structure Reads (members : List (String × Json)) (read : Nat → Members → Option α) (a : α) :
    Prop where
  keys : (members.map (·.1)).Nodup
  plain : ∀ m ∈ members, Plain m.2
  read_eq : ∀ room, (∀ m ∈ members, Members.Has ⟨members⟩ room m.1 m.2) →
    read room ⟨members⟩ = some a

/-- Members with different keys and plain values fit where they do not nest too deep. -/
theorem othersFit_of_plain {members : List (String × Json)} (plain : ∀ m ∈ members, Plain m.2)
    {room : Nat} (h : ∀ m ∈ members, Members.Has ⟨members⟩ room m.1 m.2) (keys : List String) :
    Members.othersFit ⟨members⟩ keys room = true := by
  unfold Members.othersFit
  rw [List.all_eq_true]
  intro m hm
  have hmem := (List.mem_filter.mp hm).1
  exact (plain m hmem).fits (h m hmem).depth_le

theorem has_of_depth {members : List (String × Json)} (keys : (members.map (·.1)).Nodup)
    {room : Nat} (hdepth : ∀ m ∈ members, m.2.depth ≤ room) :
    ∀ m ∈ members, Members.Has ⟨members⟩ room m.1 m.2 :=
  fun m hm => ⟨Members.field_of_mem keys hm, hdepth m hm⟩

theorem Reads.recordBy {read : Nat → Members → Option α} {members : List (String × Json)} {a : α}
    (h : Reads members read a) (layout? : List Json → Option Layout) {room : Nat}
    (hdepth : (object members).depth ≤ room) :
    Json.recordBy layout? read room (.object members) = some a := by
  obtain ⟨r, rfl, hr⟩ := depth_object_le.mp hdepth
  exact h.read_eq r (has_of_depth h.keys hr)

namespace Codec

variable {write : α → Json} {read : Nat → Members → Option α}

/-- Records are written as objects, so the layout of an array does not matter. -/
theorem recordBy (layout? : List Json → Option Layout)
    (h : ∀ a, ∃ members, write a = .object members ∧ Reads members read a) :
    Codec write (Json.recordBy layout? read) where
  plain a := by
    obtain ⟨members, hwrite, hreads⟩ := h a
    rw [hwrite]
    exact .object hreads.plain
  read_write a room hdepth := by
    obtain ⟨members, hwrite, hreads⟩ := h a
    rw [hwrite] at hdepth ⊢
    exact hreads.recordBy layout? hdepth

theorem record {layout : Layout}
    (h : ∀ a, ∃ members, write a = .object members ∧ Reads members read a) :
    Codec write (Json.record layout read) := recordBy _ h

/-- A record whose other members have to fit. -/
theorem guarded (layout? : List Json → Option Layout) (keys : List String)
    (h : ∀ a, ∃ members, write a = .object members ∧ Reads members read a) :
    Codec write (Json.recordBy layout? fun room ms =>
      if ms.othersFit keys room then read room ms else none) := by
  refine .recordBy layout? fun a => ?_
  obtain ⟨members, hwrite, hreads⟩ := h a
  refine ⟨members, hwrite, hreads.keys, hreads.plain, fun room hhas => ?_⟩
  rw [othersFit_of_plain hreads.plain hhas, if_pos rfl]
  exact hreads.read_eq room hhas

theorem keyed (keys : List String)
    (h : ∀ a, ∃ members, write a = .object members ∧ Reads members read a) :
    Codec write (Json.keyed fun room ms =>
      if ms.othersFit keys room then read room ms else none) := guarded _ keys h

theorem tagged {numbered : List String} {layout? : String → Option Layout}
    (h : ∀ a, ∃ members, write a = .object members ∧ Reads members read a) :
    Codec write (Json.tagged numbered layout? read) := guarded _ [] h

end Codec

end DomainModel.Json
