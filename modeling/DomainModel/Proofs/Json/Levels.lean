import Mathlib.Data.List.Forall2
import DomainModel.Proofs.Json.Record

/-! # Levels of records

Writing puts down the fields that a text leaves out, so a value may nest deeper once it has been
read and written again. A reader is `Tight` if that costs one level at most, and if it reads a
written value only where there is room for all of it. There is a rule for each kind of field, and
one for records: two written records are compared field by field, the one that was read and any
other that stands in its place. -/

namespace DomainModel.Json

/-! ### Fitting values -/

mutual

/-- What fits does not nest deeper than there is room. -/
theorem depth_le_of_fits {room : Nat} : ∀ {v : Json}, v.fits room = true → v.depth ≤ room
  | .null, _ | .bool _, _ | .number _, _ | .string _, _ => Nat.zero_le _
  | .array items, h => by
    rw [fits, Bool.and_eq_true, decide_eq_true_iff] at h
    have hitems := depthItems_le_of_allFit h.2
    rw [depth]
    omega
  | .object members, h => by
    rw [fits, Bool.and_eq_true, decide_eq_true_iff] at h
    have hmembers := depthMembers_le_of_allMembersFit h.2
    rw [depth]
    omega

theorem depthItems_le_of_allFit {room : Nat} : ∀ {items : List Json},
    allFit room items = true → depthItems items ≤ room
  | [], _ => Nat.zero_le _
  | v :: vs, h => by
    rw [allFit, Bool.and_eq_true] at h
    rw [depthItems, Nat.max_le]
    exact ⟨depth_le_of_fits h.1, depthItems_le_of_allFit h.2⟩

theorem depthMembers_le_of_allMembersFit {room : Nat} : ∀ {members : List (String × Json)},
    allMembersFit room members = true → depthMembers members ≤ room
  | [], _ => Nat.zero_le _
  | (_, v) :: ms, h => by
    rw [allMembersFit, Bool.and_eq_true] at h
    rw [depthMembers, Nat.max_le]
    exact ⟨depth_le_of_fits h.1, depthMembers_le_of_allMembersFit h.2⟩

end

theorem depth_le_of_othersFit {ms : Members} {keys : List String} {room : Nat}
    (h : ms.othersFit keys room = true) {m : String × Json} (hm : m ∈ ms.entries)
    (hkey : m.1 ∉ keys) : m.2.depth ≤ room := by
  unfold Members.othersFit at h
  rw [List.all_eq_true] at h
  refine depth_le_of_fits (h m (List.mem_filter.mpr ⟨hm, ?_⟩))
  simpa using hkey

/-! ### Tight readers -/

variable {α : Type}

/-- A reader that has this much room goes well with a way to write what it reads. -/
structure Tight (room : Nat) (write : α → Json) (read : Json → Option α) : Prop where
  /-- What was read is written with one more level at most, and one beyond the room at most. -/
  depth_write : ∀ {v a}, read v = some a → (write a).depth ≤ min room v.depth + 1
  /-- What was written is only read if there is room for it. -/
  depth_le : ∀ {a b}, read (write a) = some b → (write a).depth ≤ room

namespace Tight

variable {room : Nat} {write : α → Json} {read : Json → Option α}

/-- A reader that reads nothing. -/
theorem of_eq_none (h : ∀ v, read v = none) : Tight room write read := by
  constructor
  · intro v a hread
    rw [h] at hread
    cases hread
  · intro a b hread
    rw [h] at hread
    cases hread

/-- A reader of values without levels. -/
theorem scalar (h : ∀ a, (write a).depth = 0) : Tight room write read where
  depth_write {_ a} _ := by rw [h a]; exact Nat.zero_le _
  depth_le {a _} _ := by rw [h a]; exact Nat.zero_le _

theorem string : Tight room Json.string toString? := scalar fun _ => rfl

theorem bool : Tight room Json.bool toBool? := scalar fun _ => rfl

theorem handle {arena : Arena} : Tight room (ofHandle : Handle arena → Json) toHandle? :=
  scalar fun _ => rfl

theorem word [Vocabulary α] : Tight room (ofWord : α → Json) read :=
  scalar fun _ => rfl

theorem nullable (t : Tight room write read) :
    Tight room (ofOption write) (Json.nullable read) where
  depth_write {v o} h := by
    unfold Json.nullable at h
    split at h
    · cases h
      exact Nat.zero_le _
    · obtain ⟨a, ha, rfl⟩ := Option.map_eq_some_iff.mp h
      exact t.depth_write ha
  depth_le {o o'} h := by
    cases o with
    | none => exact Nat.zero_le _
    | some a =>
      rw [ofOption] at h ⊢
      unfold Json.nullable at h
      split at h
      · next hnull =>
        rw [hnull]
        exact Nat.zero_le _
      · obtain ⟨a', ha', -⟩ := Option.map_eq_some_iff.mp h
        exact t.depth_le ha'

end Tight

/-! ### Lists -/

theorem forall₂_of_mapM {read : Json → Option α} : ∀ {items : List Json} {as : List α},
    items.mapM read = some as → List.Forall₂ (fun v a => read v = some a) items as
  | [], as, h => by
    cases h
    exact .nil
  | v :: vs, as, h => by
    rw [List.mapM_cons] at h
    obtain ⟨a, ha, h⟩ := Option.bind_eq_some_iff.mp h
    obtain ⟨rest, hrest, h⟩ := Option.bind_eq_some_iff.mp h
    cases h
    exact .cons ha (forall₂_of_mapM hrest)

/-- What relates the items of two lists pairwise may say something about those of the first. -/
theorem forall_mem_of_forall₂ {β : Type} {R : α → β → Prop} {P : α → Prop} {as : List α}
    {bs : List β} (h : List.Forall₂ R as bs) (hP : ∀ a b, R a b → P a) : ∀ a ∈ as, P a :=
  ((List.forall₂_and_left _ _).mp (h.imp fun a b hab => ⟨hP a b hab, hab⟩)).1

theorem Tight.list_succ {write : α → Json} {read : Nat → Json → Option α} {room : Nat}
    (t : Tight room write (read room)) :
    Tight (room + 1) (ofList write) (Json.list read (room + 1)) where
  depth_write {v as} h := by
    cases v with
    | array items =>
      have hitems : ∀ v ∈ items, v.depth ≤ depthItems items := depthItems_le.mp (Nat.le_refl _)
      have hpairs := (List.forall₂_and_left _ _).mpr ⟨hitems, forall₂_of_mapM h⟩
      have hdepth : ∀ a ∈ as, (write a).depth ≤ min room (depthItems items) + 1 := by
        refine forall_mem_of_forall₂ hpairs.flip ?_
        rintro a v ⟨hv, hread⟩
        have := t.depth_write hread
        omega
      have hwritten := depthItems_le.mpr (List.forall_mem_map.mpr hdepth)
      rw [ofList, depth, depth]
      omega
    | _ => cases h
  depth_le {as bs} h := by
    have hpairs := List.forall₂_map_left_iff.mp (forall₂_of_mapM h)
    have hdepth : ∀ v ∈ as.map write, v.depth ≤ room :=
      List.forall_mem_map.mpr (forall_mem_of_forall₂ hpairs fun a b hab => t.depth_le hab)
    rw [ofList, depth]
    exact Nat.succ_le_succ (depthItems_le.mpr hdepth)

theorem Tight.list {write : α → Json} {read : Nat → Json → Option α}
    (t : ∀ room, Tight room write (read room)) (room : Nat) :
    Tight room (ofList write) (Json.list read room) := by
  cases room with
  | zero => exact .of_eq_none fun _ => rfl
  | succ room => exact (t room).list_succ

theorem Tight.strings (room : Nat) : Tight room (ofList Json.string) (Json.strings room) :=
  list (fun _ => string) room

/-! ### Choices -/

theorem levels_of_choice {room : Nat} {v w : Json} {name : String}
    (h : choice room v = some (name, some w)) : 1 ≤ room ∧ v.depth = w.depth + 1 := by
  unfold choice at h
  split at h
  · cases h
  · cases h
    refine ⟨by omega, ?_⟩
    rw [depth, depthMembers, depthMembers, Nat.max_zero]
  · cases h

/-! ### Fields -/

/-- The number of levels that the values of a record may have once it is written: one more than
they have, and one beyond the room at most. -/
def Members.level (ms : Members) (room : Nat) : Nat := min room (depthMembers ms.entries) + 1

/-- `v` is written for a field that was read from the members. If the members were written
themselves, with `w` for the field, they were read with room for it. -/
structure Members.Gives (ms : Members) (room : Nat) (key : String) (v w : Json) : Prop where
  depth_write : v.depth ≤ ms.level room
  depth_le : ms.field key = .once w → w.depth ≤ room

theorem Members.depth_le_of_field {ms : Members} {key : String} {v : Json}
    (h : ms.field key = .once v) : v.depth ≤ depthMembers ms.entries := by
  have hall := depthMembers_le.mp (Nat.le_refl (depthMembers ms.entries))
  unfold field at h
  split at h
  · cases h
  · next m v' hfilter =>
    cases h
    have hmem : (m, v) ∈ ms.entries.filter (·.1 == key) := by
      rw [hfilter]
      exact List.mem_singleton_self _
    exact hall _ (List.mem_filter.mp hmem).1
  · cases h

namespace Tight

variable {room : Nat} {write : α → Json} {read : Json → Option α} {ms : Members} {key : String}

/-- A field that is there. -/
theorem gives (t : Tight room write read) {v : Json} (hfield : ms.field key = .once v) {a : α}
    (hread : read v = some a) (b : α) : ms.Gives room key (write a) (write b) where
  depth_write := by
    have hdepth := t.depth_write hread
    have hlevel := Members.depth_le_of_field hfield
    unfold Members.level
    omega
  depth_le h := by
    rw [hfield] at h
    cases h
    exact t.depth_le hread

theorem required (t : Tight room write read) {a : α} (h : ms.required key read = some a) (b : α) :
    ms.Gives room key (write a) (write b) := by
  unfold Members.required at h
  cases hfield : ms.field key with
  | once v =>
    rw [hfield] at h
    exact t.gives hfield h b
  | absent | repeated =>
    rw [hfield] at h
    cases h

theorem withDefault (t : Tight room write read) {default : α} (hdefault : (write default).depth ≤ 1)
    {a : α} (h : ms.withDefault key default read = some a) (b : α) :
    ms.Gives room key (write a) (write b) := by
  unfold Members.withDefault at h
  cases hfield : ms.field key with
  | once v =>
    rw [hfield] at h
    exact t.gives hfield h b
  | absent =>
    rw [hfield] at h
    cases h
    refine ⟨?_, fun h => ?_⟩
    · unfold Members.level
      omega
    · rw [hfield] at h
      cases h
  | repeated =>
    rw [hfield] at h
    cases h

theorem optional (t : Tight room write read) {o : Option α} (h : ms.optional key read = some o)
    (o' : Option α) : ms.Gives room key (ofOption write o) (ofOption write o') :=
  have hnone : (ofOption write none).depth ≤ 1 := Nat.zero_le 1
  t.nullable.withDefault hnone h o'

/-- A list that may be left out. -/
theorem listOrEmpty {write : α → Json} {read : Nat → Json → Option α}
    (t : ∀ room, Tight room write (read room)) {as : List α}
    (h : ms.withDefault key [] (Json.list read room) = some as) (bs : List α) :
    ms.Gives room key (ofList write as) (ofList write bs) :=
  have hnil : (ofList write []).depth ≤ 1 := Nat.le_refl 1
  (list t room).withDefault hnil h bs

theorem stringsOrEmpty {as : List String}
    (h : ms.withDefault key [] (Json.strings room) = some as) (bs : List String) :
    ms.Gives room key (ofList Json.string as) (ofList Json.string bs) :=
  listOrEmpty (fun _ => string) h bs

theorem handlesOrEmpty {arena : Arena} {as : List (Handle arena)}
    (h : ms.withDefault key [] (Json.handles room) = some as) (bs : List (Handle arena)) :
    ms.Gives room key (ofList ofHandle as) (ofList ofHandle bs) :=
  listOrEmpty (fun _ => handle) h bs

end Tight

/-! ### Records -/

/-- The fields of an array nest no deeper than its items. -/
theorem Layout.depth_le_of_members? {layout : Layout} {items : List Json} {ms : Members}
    (h : layout.members? items = some ms) : depthMembers ms.entries ≤ depthItems items := by
  unfold members? at h
  split at h
  · cases h
    have hitems := depthItems_le.mp (Nat.le_refl (depthItems items))
    exact depthMembers_le.mpr fun m hm => hitems m.2 (List.of_mem_zip hm).2
  · cases h

section

variable {write : α → Json} {read : Nat → Members → Option α} {members : α → List (String × Json)}
  {layout? : List Json → Option Layout}

/-- A record is read from members, which are one level further in. -/
theorem recordBy_eq_some {room : Nat} {v : Json} {a : α}
    (h : Json.recordBy layout? read room v = some a) :
    ∃ r ms, room = r + 1 ∧ read r ms = some a ∧ depthMembers ms.entries + 1 ≤ v.depth := by
  cases room with
  | zero => cases h
  | succ r =>
    cases v with
    | object entries => exact ⟨r, ⟨entries⟩, rfl, h, Nat.le_refl _⟩
    | array items =>
      obtain ⟨layout, -, h⟩ := Option.bind_eq_some_iff.mp h
      obtain ⟨ms, hms, h⟩ := Option.bind_eq_some_iff.mp h
      exact ⟨r, ms, rfl, h, Nat.succ_le_succ (Layout.depth_le_of_members? hms)⟩
    | _ => cases h

/-- **Records:** it is enough to look at the values of the record that was read, and at those of a
written record in its place. -/
theorem Tight.of_members {room : Nat} (hwrite : ∀ a, write a = .object (members a))
    (hdepth : ∀ ms a, read room ms = some a → ∀ m ∈ members a, m.2.depth ≤ ms.level room)
    (hroom : ∀ a b, read room ⟨members a⟩ = some b → ∀ m ∈ members a, m.2.depth ≤ room) :
    Tight (room + 1) write (Json.recordBy layout? read (room + 1)) where
  depth_write {v a} h := by
    obtain ⟨_, ms, heq, hread, hms⟩ := recordBy_eq_some h
    cases heq
    have hwritten := depthMembers_le.mpr (hdepth ms a hread)
    unfold Members.level at hwritten
    rw [hwrite a, depth]
    omega
  depth_le {a b} h := by
    rw [hwrite a] at h ⊢
    exact depth_object_le.mpr ⟨room, rfl, hroom a b h⟩

/-- A record, field by field. -/
theorem Tight.record {layout : Layout} (hwrite : ∀ a, write a = .object (members a))
    (hkeys : ∀ a, ((members a).map (·.1)).Nodup)
    (h : ∀ room ms a b, read room ms = some a →
      List.Forall₂ (fun m n => ms.Gives room n.1 m.2 n.2) (members a) (members b)) (room : Nat) :
    Tight room write (Json.record layout read room) := by
  cases room with
  | zero => exact .of_eq_none fun _ => rfl
  | succ room =>
    refine .of_members hwrite (fun ms a hread => ?_) fun a b hread => ?_
    · exact forall_mem_of_forall₂ (h room ms a a hread) fun m n hgives => hgives.depth_write
    · have hfields : ∀ m ∈ members a, Members.field ⟨members a⟩ m.1 = .once m.2 :=
        fun m hm => Members.field_of_mem (hkeys a) hm
      have hpairs := (List.forall₂_and_left _ _).mpr ⟨hfields, (h room _ b a hread).flip⟩
      exact forall_mem_of_forall₂ hpairs fun m n hgives => hgives.2.depth_le hgives.1

/-- A tagged record: as all of its members have to fit, there is room for what was written. -/
theorem Tight.tagged_succ {numbered : List String} {layout? : String → Option Layout} {room : Nat}
    (hwrite : ∀ a, write a = .object (members a))
    (hdepth : ∀ ms a, read room ms = some a → ∀ m ∈ members a, m.2.depth ≤ ms.level room) :
    Tight (room + 1) write (Json.tagged numbered layout? read (room + 1)) := by
  refine .of_members hwrite (fun ms a hread => ?_) fun a b hread m hm => ?_
  · split at hread
    · exact hdepth ms a hread
    · cases hread
  · split at hread
    · next hfit => exact depth_le_of_othersFit hfit hm List.not_mem_nil
    · cases hread

theorem Tight.tagged {numbered : List String} {layout? : String → Option Layout}
    (hwrite : ∀ a, write a = .object (members a))
    (hdepth : ∀ room ms a, read room ms = some a → ∀ m ∈ members a, m.2.depth ≤ ms.level room)
    (room : Nat) : Tight room write (Json.tagged numbered layout? read room) := by
  cases room with
  | zero => exact .of_eq_none fun _ => rfl
  | succ room => exact .tagged_succ hwrite (hdepth room)

end

end DomainModel.Json
