import DomainModel.Ty.Basic

/-! # Compatibility as a comparison

Compatibility goes by the shape of two types, with two exceptions: an `error` goes with everything,
and `null` with all types that accept it. Without these, each type belongs to one `Ty.Family`: the
wrappers around its name, and the name without regard to case, all numeric names being one. Types
are compatible exactly if their families are equal (`Ty.compatible_iff_family`), so compatibility is
an equivalence among them (`Ty.compatible_equivalence`).

Names compare without regard to case, but whether `null` may stand for a named type depends on the
spelling of the name: the names that it may stand for are listed as they are written. So another
spelling of a primitive name makes no difference, unless `null` is set against that name
(`Ty.compatible_respelled`). -/

namespace DomainModel

theorem sameName_iff {a b : String} : sameName a b = true ↔ foldCase a = foldCase b := by
  simp [sameName]

theorem sameName_comm (a b : String) : sameName a b = sameName b a := by
  rw [Bool.eq_iff_iff, sameName_iff, sameName_iff, eq_comm]

namespace Ty

variable {entityNames : List String}

/-! ### All types -/

theorem sameOrNumeric_comm (a b : Ty) : sameOrNumeric a b = sameOrNumeric b a := by
  unfold sameOrNumeric
  cases a.name? <;> cases b.name? <;> simp only [sameName_comm, Bool.and_comm]

theorem compatible_self (t : Ty) : compatible entityNames t t = true := by
  induction t with
  | primitive n | entity n => simp [compatible, sameOrNumeric, name?, sameName]
  | collection t ih | optional t ih => exact ih
  | final | null | error => rfl

theorem compatible_comm (a b : Ty) :
    compatible entityNames a b = compatible entityNames b a := by
  induction a generalizing b with
  | primitive m | entity m =>
    cases b with
    | primitive n | entity n => exact sameOrNumeric_comm _ _
    | _ => rfl
  | collection t ih =>
    cases b with
    | collection u => exact ih u
    | _ => rfl
  | optional t ih =>
    cases b with
    | optional u => exact ih u
    | _ => rfl
  | final | null | error => cases b <;> rfl

/-! ### Families -/

/-- What compatibility goes by in a type. -/
inductive Family where
  /-- A name without regard to case; all numeric names are `none`. -/
  | named (folded : Option (List Char))
  | collection (element : Family)
  | optional (content : Family)
  | final
  /-- What goes with types of several families. -/
  | several
deriving DecidableEq

/-- The family of a name. -/
def nameFamily (n : String) : Family :=
  .named (if (primitive n).isNumeric then none else some (foldCase n))

def family : Ty → Family
  | primitive n | entity n => nameFamily n
  | collection t => .collection t.family
  | optional t => .optional t.family
  | final => .final
  | null | error => .several

/-- The type belongs to one family: it contains neither `null` nor `error`, nor an entity that is
named like a numeric type. -/
def Settled : Ty → Prop
  | null | error => False
  | entity n => ∀ numeric ∈ numericNames, sameName numeric n = false
  | collection t | optional t => t.Settled
  | primitive _ | final => True

theorem isNumeric_congr {m n : String} (h : foldCase m = foldCase n) :
    (primitive m).isNumeric = (primitive n).isNumeric := by
  simp only [isNumeric, sameName, h]

theorem isNumeric_of_settled {n : String} (h : (entity n).Settled) :
    (primitive n).isNumeric = (entity n).isNumeric := by
  change numericNames.any (sameName · n) = false
  rw [List.any_eq_false]
  exact fun numeric hmem => by simp [h numeric hmem]

theorem nameFamily_eq_iff {m n : String} :
    nameFamily m = nameFamily n ↔
      sameName m n = true ∨ (primitive m).isNumeric = true ∧ (primitive n).isNumeric = true := by
  rw [sameName_iff, nameFamily, nameFamily, Family.named.injEq]
  constructor
  · intro h
    split at h <;> split at h
    · next hm hn => exact .inr ⟨hm, hn⟩
    · cases h
    · cases h
    · exact .inl (Option.some.inj h)
  · rintro (h | ⟨hm, hn⟩)
    · rw [isNumeric_congr h, h]
    · rw [if_pos hm, if_pos hn]

/-- Named types that are numeric by their names are compared by their families. -/
theorem sameOrNumeric_iff {a b : Ty} {m n : String} (ha : a.name? = some m) (hb : b.name? = some n)
    (hm : (primitive m).isNumeric = a.isNumeric) (hn : (primitive n).isNumeric = b.isNumeric) :
    sameOrNumeric a b = true ↔ nameFamily m = nameFamily n := by
  rw [nameFamily_eq_iff, hm, hn, sameOrNumeric, ha, hb]
  simp

/-- **Settled types are compatible exactly if their families are equal.** -/
theorem compatible_iff_family {a b : Ty} (ha : a.Settled) (hb : b.Settled) :
    compatible entityNames a b = true ↔ a.family = b.family := by
  induction a generalizing b with
  | primitive m =>
    cases b with
    | primitive n => exact sameOrNumeric_iff rfl rfl rfl rfl
    | entity n => exact sameOrNumeric_iff rfl rfl rfl (isNumeric_of_settled hb)
    | collection u | optional u | final =>
      simp [compatible, sameOrNumeric, name?, family, nameFamily]
    | null | error => exact hb.elim
  | entity m =>
    have hm := isNumeric_of_settled ha
    cases b with
    | primitive n => exact sameOrNumeric_iff rfl rfl hm rfl
    | entity n => exact sameOrNumeric_iff rfl rfl hm (isNumeric_of_settled hb)
    | collection u | optional u | final =>
      simp [compatible, sameOrNumeric, name?, family, nameFamily]
    | null | error => exact hb.elim
  | collection t ih =>
    cases b with
    | collection u =>
      rw [compatible, ih ha (b := u) hb, family, family, Family.collection.injEq]
    | null | error => exact hb.elim
    | _ => simp [compatible, sameOrNumeric, name?, family, nameFamily]
  | optional t ih =>
    cases b with
    | optional u =>
      rw [compatible, ih ha (b := u) hb, family, family, Family.optional.injEq]
    | null | error => exact hb.elim
    | _ => simp [compatible, sameOrNumeric, name?, family, nameFamily]
  | final =>
    cases b with
    | null | error => exact hb.elim
    | _ => simp [compatible, sameOrNumeric, name?, family, nameFamily]
  | null | error => exact ha.elim

/-- **Compatibility is an equivalence** as far as types belong to one family. On all types it is
reflexive and symmetric. -/
theorem compatible_equivalence (entityNames : List String) :
    (∀ t, compatible entityNames t t = true) ∧
      (∀ a b, compatible entityNames a b = compatible entityNames b a) ∧
      ∀ a b c : Ty, a.Settled → b.Settled → c.Settled → compatible entityNames a b = true →
        compatible entityNames b c = true → compatible entityNames a c = true := by
  refine ⟨compatible_self, compatible_comm, fun a b c ha hb hc hab hbc => ?_⟩
  rw [compatible_iff_family ha hb] at hab
  rw [compatible_iff_family hb hc] at hbc
  exact (compatible_iff_family ha hc).mpr (hab.trans hbc)

/-- Numbers go together whatever their names are, orders by the name. -/
theorem compatible_equivalence_orders :
    let list := fun name => collection (optional (primitive name))
    compatible [] (list "int") (list "BigDecimal") = true ∧ (entity "Order").Settled ∧
      compatible [] (entity "Order") (primitive "order") = true := by
  intro list
  obtain ⟨-, -, trans⟩ := compatible_equivalence []
  have settled : (entity "Order").Settled := by
    change ∀ numeric ∈ numericNames, sameName numeric "Order" = false
    decide
  exact ⟨trans (list "int") (list "INTEGER") (list "BigDecimal") trivial trivial trivial
    (by decide) (by decide), settled,
    trans (entity "Order") (primitive "ORDER") (primitive "order") settled trivial trivial
      (by decide) (by decide)⟩

/-- A string and a date both go with `null`, and not with each other. -/
example : compatible [] string null = true ∧ compatible [] null dateTime = true ∧
    compatible [] string dateTime = false := by
  decide

/-! ### Spelling -/

/-- The types differ only in the case of the letters of primitive names. -/
inductive Respelled : Ty → Ty → Prop where
  | primitive {n' n : String} (h : sameName n' n = true) :
    Respelled (.primitive n') (.primitive n)
  | collection {t' t : Ty} (h : Respelled t' t) : Respelled (.collection t') (.collection t)
  | optional {t' t : Ty} (h : Respelled t' t) : Respelled (.optional t') (.optional t)
  | same (t : Ty) : Respelled t t

/-- The primitive name in the first type against which the second one has `null`. -/
def nameAtNull? : Ty → Ty → Option String
  | primitive n, null => some n
  | collection a, collection b | optional a, optional b => a.nameAtNull? b
  | _, _ => none

variable {a' a b : Ty} {n : String}

/-- Against `null` a name counts as it is spelled. -/
theorem compatible_of_nameAtNull (h : a.nameAtNull? b = some n) :
    compatible entityNames a b = acceptsNull entityNames (primitive n) := by
  fun_induction nameAtNull? a b with
  | case1 m =>
    cases h
    rfl
  | case2 a b ih | case3 a b ih => exact ih h
  | case4 => cases h

theorem compatible_of_respelled (h : Respelled a' a) (hnull : a.nameAtNull? b = none) :
    compatible entityNames a' b = compatible entityNames a b := by
  induction h generalizing b with
  | @primitive m' m h =>
    have hfold : foldCase m' = foldCase m := sameName_iff.mp h
    cases b with
    | primitive n | entity n =>
      change sameOrNumeric _ _ = sameOrNumeric _ _
      simp only [sameOrNumeric, name?, sameName, hfold, isNumeric_congr hfold]
    | null => cases hnull
    | _ => rfl
  | collection _ ih =>
    cases b with
    | collection b => exact ih hnull
    | _ => rfl
  | optional _ ih =>
    cases b with
    | optional b => exact ih hnull
    | _ => rfl
  | same t => rfl

theorem nameAtNull_of_respelled (h : Respelled a' a) (hnull : a.nameAtNull? b = some n) :
    ∃ n', a'.nameAtNull? b = some n' ∧ sameName n' n = true := by
  induction h generalizing b with
  | primitive h =>
    cases b with
    | null =>
      cases hnull
      exact ⟨_, rfl, h⟩
    | _ => cases hnull
  | collection _ ih =>
    cases b with
    | collection b => exact ih hnull
    | _ => cases hnull
  | optional _ ih =>
    cases b with
    | optional b => exact ih hnull
    | _ => cases hnull
  | same t => exact ⟨n, hnull, by simp [sameName]⟩

/-- **Spelling makes no difference, except against `null`.** A type with another spelling of
primitive names is compatible with the same types as before, in both orders, where the other type
has no `null` against one of these names. Where it has, the type is compatible exactly if the name,
in its own spelling, is one that `null` may stand for. -/
theorem compatible_respelled (entityNames : List String) (h : Respelled a' a) (b : Ty) :
    (a.nameAtNull? b = none →
      compatible entityNames a' b = compatible entityNames a b ∧
        compatible entityNames b a' = compatible entityNames b a) ∧
    ∀ n, a.nameAtNull? b = some n → ∃ n', a'.nameAtNull? b = some n' ∧ sameName n' n = true ∧
      (compatible entityNames a' b = true ↔ n' ∈ nullableNames ∨ n' ∈ entityNames) ∧
      (compatible entityNames b a' = true ↔ n' ∈ nullableNames ∨ n' ∈ entityNames) := by
  constructor
  · intro hnull
    have hsame : compatible entityNames a' b = compatible entityNames a b :=
      compatible_of_respelled h hnull
    exact ⟨hsame, by rw [compatible_comm b a', compatible_comm b a, hsame]⟩
  · intro n hnull
    obtain ⟨n', hnull', hname⟩ := nameAtNull_of_respelled h hnull
    have haccepts : compatible entityNames a' b = true ↔
        n' ∈ nullableNames ∨ n' ∈ entityNames := by
      rw [compatible_of_nameAtNull hnull', acceptsNull]
      simp
    exact ⟨n', hnull', hname, haccepts, by rw [compatible_comm, haccepts]⟩

/-- A list of texts in capitals goes with a list of texts, and not with a list of `null`. -/
theorem compatible_respelled_texts :
    let capitals := collection (primitive "STRING")
    Respelled capitals (collection string) ∧
      compatible [] capitals (collection string) = true ∧
      compatible [] (collection string) capitals = true ∧
      compatible [] capitals (collection null) = false ∧
      compatible [] (collection null) capitals = false := by
  intro capitals
  have respelled : Respelled capitals (collection string) := .collection (.primitive (by decide))
  obtain ⟨hsame, -⟩ := compatible_respelled [] respelled (collection string)
  obtain ⟨-, hnull⟩ := compatible_respelled [] respelled (collection null)
  obtain ⟨left, right⟩ := hsame rfl
  obtain ⟨_, ⟨⟩, -, hleft, hright⟩ := hnull _ rfl
  have unlisted : ¬("STRING" ∈ nullableNames ∨ "STRING" ∈ ([] : List String)) := by decide
  exact ⟨respelled, left.trans (compatible_self _), right.trans (compatible_self _),
    Bool.eq_false_iff.mpr (mt hleft.mp unlisted), Bool.eq_false_iff.mpr (mt hright.mp unlisted)⟩

/-- **Against `null` another spelling may go wrong:** `null` stands for a `String`, not for a
`string`, though both are one type. -/
theorem respelled_against_null :
    Respelled (primitive "string") string ∧ compatible [] (primitive "string") string = true ∧
      compatible [] string null = true ∧ compatible [] (primitive "string") null = false ∧
      compatible [] null string = true ∧ compatible [] null (primitive "string") = false :=
  ⟨.primitive (by decide), by decide, by decide, by decide, by decide, by decide⟩

end Ty

end DomainModel
