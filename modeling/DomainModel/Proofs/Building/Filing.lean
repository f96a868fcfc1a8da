import DomainModel.Lookup
import Mathlib.Data.List.Induction

/-! # Filing children with their parents

Every child of an arena names its parent. The parents file their children: each keeps a list with
the handles of the children that name it (`Files`), in the order in which they were added
(`handlesOf`). As long as no two children share a handle, a child then occurs once in the list of
its parent and in no other list (`onlyIn_of_files`); once the arena has more nodes than there are
handles, some handle is filed twice (`length_le_of_onlyIn`). -/

namespace DomainModel

variable {arena : Arena} {π : Type} [DecidableEq π]

/-- The handles of the children that name the parent, given whom each child names. -/
def handlesOf (ups : List π) (p : π) : List (Handle arena) :=
  (ups.zipIdx.filter fun x => x.1 = p).map fun x => .ofIndex x.2

/-- Every parent lists the children that name it. -/
def Files (list : π → List (Handle arena)) (ups : List π) : Prop :=
  ∀ p, (list p).Perm (handlesOf ups p)

/-- The child occurs once in the list of the parent, and in no other list. -/
structure OnlyIn (list : π → List (Handle arena)) (child : Handle arena) (parent : π) : Prop where
  once : (list parent).count child = 1
  elsewhere : ∀ p, p ≠ parent → child ∉ list p

theorem Files.congr {list list' : π → List (Handle arena)} {ups ups' : List π} (h : Files list ups)
    (hlist : ∀ p, list' p = list p) (hups : ups' = ups) : Files list' ups' := by
  intro p
  rw [hlist p, hups]
  exact h p

/-! ### Adding a child -/

theorem handlesOf_append (ups : List π) (q p : π) :
    (handlesOf (ups ++ [q]) p : List (Handle arena)) =
      handlesOf ups p ++ if q = p then [.ofIndex ups.length] else [] := by
  unfold handlesOf
  rw [List.zipIdx_append, List.filter_append, List.map_append]
  by_cases h : q = p <;> simp [h]

/-- A new child is filed if its handle is added to the list of the parent that it names. -/
theorem Files.add {list list' : π → List (Handle arena)} {ups : List π} (h : Files list ups) (q : π)
    (hlist : ∀ p, (list' p).Perm (list p ++ if q = p then [.ofIndex ups.length] else [])) :
    Files list' (ups ++ [q]) := by
  intro p
  rw [handlesOf_append]
  exact (hlist p).trans ((h p).append_right _)

/-- The same for children that name their parents themselves. -/
theorem Files.addNode {α : Type} {list list' : π → List (Handle arena)} {nodes : List α}
    {up : α → π} (h : Files list (nodes.map up)) (a : α)
    (hlist : ∀ p, (list' p).Perm (list p ++ if up a = p then [.ofIndex nodes.length] else [])) :
    Files list' ((nodes ++ [a]).map up) := by
  rw [List.map_append]
  refine h.add (up a) ?_
  rwa [List.length_map]

/-! ### Where a handle is filed -/

theorem count_handlesOf {ups : List π} (hlength : ups.length ≤ UInt32.size) (p : π)
    (child : Handle arena) :
    (handlesOf ups p).count child = if ups[child.index]? = some p then 1 else 0 := by
  induction ups using List.reverseRecOn with
  | nil => simp [handlesOf]
  | append_singleton ups q ih =>
    have hlt : ups.length < UInt32.size := by
      rw [List.length_append] at hlength
      exact hlength
    have hnew : (if q = p then [(Handle.ofIndex ups.length : Handle arena)] else []).count child =
        if q = p ∧ ups.length = child.index then 1 else 0 := by
      have heq : (Handle.ofIndex ups.length : Handle arena) = child ↔
          ups.length = child.index := by
        rw [← Handle.index_inj, Handle.index_ofIndex hlt]
      by_cases hq : q = p <;> simp [hq, List.count_singleton, heq]
    rw [handlesOf_append, List.count_append, ih (Nat.le_of_lt hlt), hnew]
    rcases Nat.lt_trichotomy child.index ups.length with hchild | hchild | hchild
    · rw [List.getElem?_append_left hchild]
      simp [Nat.ne_of_gt hchild]
    · simp [hchild]
    · have hnone : (ups ++ [q])[child.index]? = none := by
        rw [List.getElem?_eq_none_iff, List.length_append]
        exact hchild
      rw [hnone, List.getElem?_eq_none (Nat.le_of_lt hchild)]
      simp [Nat.ne_of_lt hchild]

/-- If no two children share a handle, a child is filed once, with its parent. -/
theorem onlyIn_of_files {list : π → List (Handle arena)} {ups : List π} (h : Files list ups)
    (hlength : ups.length ≤ UInt32.size) {child : Handle arena} {p : π}
    (hp : ups[child.index]? = some p) : OnlyIn list child p where
  once := by rw [(h p).count_eq, count_handlesOf hlength, if_pos hp]
  elsewhere q hq := by
    rw [← List.count_eq_zero, (h q).count_eq, count_handlesOf hlength, hp]
    exact if_neg fun heq => hq (Option.some.inj heq).symm

theorem mem_handlesOf {ups : List π} {i : Nat} {p : π} (hp : ups[i]? = some p) :
    (.ofIndex i : Handle arena) ∈ handlesOf ups p := by
  unfold handlesOf
  refine List.mem_map.mpr ⟨(p, i), List.mem_filter.mpr ⟨?_, by simp⟩, rfl⟩
  exact List.mk_mem_zipIdx_iff_getElem?.mpr hp

theorem handlesOf_take (ups : List π) (n : Nat) (p : π) :
    (handlesOf (ups.take n) p).Sublist (handlesOf ups p : List (Handle arena)) := by
  conv_rhs => rw [← List.take_append_drop n ups]
  unfold handlesOf
  rw [List.zipIdx_append, List.filter_append, List.map_append]
  exact List.sublist_append_left ..

/-- If two positions have one handle and name one parent, the handle is filed twice. -/
theorem two_le_count_handlesOf {ups : List π} {i j : Nat} (hij : i < j) {p : π}
    (hi : ups[i]? = some p) (hj : ups[j]? = some p)
    (heq : (.ofIndex i : Handle arena) = .ofIndex j) :
    2 ≤ (handlesOf ups p).count (.ofIndex i : Handle arena) := by
  obtain ⟨hlt, rfl⟩ := List.getElem?_eq_some_iff.mp hj
  have hfirst : (.ofIndex i : Handle arena) ∈ handlesOf (ups.take j) ups[j] :=
    mem_handlesOf (by rw [List.getElem?_take_of_lt hij, hi])
  have hpos := List.count_pos_iff.mpr hfirst
  have hshort : (handlesOf (ups.take (j + 1)) ups[j]).count (.ofIndex i : Handle arena) =
      (handlesOf (ups.take j) ups[j]).count (.ofIndex i : Handle arena) + 1 := by
    have hlength : (ups.take j).length = j := by
      rw [List.length_take]
      omega
    rw [← List.take_append_getElem hlt, handlesOf_append, if_pos rfl, List.count_append, hlength,
      heq, List.count_singleton_self]
  have hwhole : (handlesOf (ups.take (j + 1)) ups[j]).count (.ofIndex i : Handle arena) ≤
      (handlesOf ups ups[j]).count (.ofIndex i) := (handlesOf_take ups (j + 1) ups[j]).count_le _
  omega

/-- If every child is filed once, no two children share a handle. -/
theorem length_le_of_onlyIn {list : π → List (Handle arena)} {ups : List π} (h : Files list ups)
    (honly : ∀ child : Handle arena, child.index < ups.length → ∃ p, OnlyIn list child p) :
    ups.length ≤ UInt32.size := by
  by_contra hlength
  have hlength : UInt32.size < ups.length := Nat.lt_of_not_le hlength
  obtain ⟨p, hp⟩ := honly (.ofIndex 0) (by rw [Handle.index_ofIndex (by decide)]; omega)
  -- the first child has the handle of the first one past the last word, and both name `p`
  have hwrap : (.ofIndex 0 : Handle arena) = .ofIndex UInt32.size := rfl
  have hnames : ∀ i, (.ofIndex 0 : Handle arena) = .ofIndex i → i < ups.length →
      ups[i]? = some p := by
    intro i heq hi
    rw [List.getElem?_eq_getElem hi, Option.some.injEq]
    by_contra hne
    have hmem : (.ofIndex i : Handle arena) ∈ handlesOf ups ups[i] :=
      mem_handlesOf (List.getElem?_eq_getElem hi)
    rw [← heq] at hmem
    exact hp.elsewhere _ hne ((h ups[i]).mem_iff.mpr hmem)
  have htwice := two_le_count_handlesOf (by decide : 0 < UInt32.size)
    (hnames 0 rfl (by omega)) (hnames UInt32.size hwrap hlength) hwrap
  rw [← (h p).count_eq, hp.once] at htwice
  omega

end DomainModel
