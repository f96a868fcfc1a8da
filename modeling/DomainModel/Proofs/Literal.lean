import Mathlib.Algebra.Order.Field.Rat
import Mathlib.Data.List.DropRight
import Mathlib.Tactic.FieldSimp
import Mathlib.Tactic.Ring
import DomainModel.Proofs.Json.Number
import DomainModel.Ty.Literal

/-! # Types and values of number literals

A `Numeral` is a decimal literal in its parts, `[+-]? digits (. digits*)? ([eE] [+-]? digits)?`,
with digit runs of any length, and `n.value` is the rational number that it denotes.

* `mantissaScale_mantissa`: the scale is the number of places less the zeros at the end of all
  digits.
* `value_eq`: without these zeros, the value is a natural number `k` times a power of ten. Unless
  `k` is zero, it has no factor ten (`not_ten_dvd`), so the sign of that power decides whether the
  value is an integer (`den_eq_one_iff`).
* `type_text`: the type is `Integer` exactly if the value is an integer, but for a zero: its zeros
  count as zeros at the end of the whole part, and an exponent that takes away more of them makes it
  a `Float`, as in `0e-2` (`zero_of_type_float`). -/

namespace DomainModel.Literal

open Digits

/-! ### Numerals -/

/-- A sign in front of digits. -/
inductive Sign where
  | plus
  | minus
deriving DecidableEq

namespace Sign

/-- A sign as written; it may be left out. -/
def text : Option Sign → List Char
  | none => []
  | some plus => ['+']
  | some minus => ['-']

/-- What the number behind a sign is multiplied by. -/
def factor : Option Sign → ℤ
  | none | some plus => 1
  | some minus => -1

end Sign

/-- A run of digits. -/
def IsRun (ds : List Char) : Prop := ∀ c ∈ ds, c.isDigit = true

/-- An exponent as written. -/
structure Power where
  capital : Bool
  sign : Option Sign
  digits : List Char
  digits_ne_nil : digits ≠ []
  isRun_digits : IsRun digits

/-- **A decimal literal in its parts.** The fraction may be a point without digits behind it. -/
structure Numeral where
  sign : Option Sign
  whole : List Char
  fraction : Option (List Char)
  power : Option Power
  whole_ne_nil : whole ≠ []
  isRun_whole : IsRun whole
  isRun_fraction : ∀ ds ∈ fraction, IsRun ds

namespace Power

variable (p : Power)

/-- The exponent behind its mark. -/
def signed : List Char := Sign.text p.sign ++ p.digits

def text : List Char := (if p.capital then 'E' else 'e') :: p.signed

def value : ℤ := Sign.factor p.sign * Digits.value 10 p.digits

end Power

namespace Numeral

variable (n : Numeral)

/-- The digits behind the point. -/
def places : List Char := n.fraction.getD []

/-- The literal without its sign and its exponent. -/
def mantissa : List Char := n.whole ++ n.fraction.elim [] ('.' :: ·)

/-- **The literal as written.** -/
def text : List Char := Sign.text n.sign ++ (n.mantissa ++ n.power.elim [] Power.text)

/-- The exponent, zero if none is written. -/
def exponent : ℤ := n.power.elim 0 Power.value

/-- **The number that a literal denotes.** -/
def value : ℚ :=
  Sign.factor n.sign *
    (Digits.value 10 n.whole + Digits.value 10 n.places / 10 ^ n.places.length) * 10 ^ n.exponent

theorem isRun_places : IsRun n.places := by
  unfold places
  cases h : n.fraction with
  | none => simp [IsRun]
  | some ds => exact n.isRun_fraction ds h

end Numeral

/-! ### Scanning -/

theorem isSign_of_isDigit {c : Char} (h : c.isDigit = true) : isSign c = false := by
  rw [Bool.eq_false_iff]
  intro hsign
  unfold isSign at hsign
  simp only [Bool.or_eq_true, beq_iff_eq] at hsign
  rcases hsign with rfl | rfl <;> cases h

/-- Behind a sign that may be left out the digits start. -/
theorem span_isSign (sign : Option Sign) {ds : List Char} (hne : ds ≠ []) (hds : IsRun ds)
    (rest : List Char) :
    (Sign.text sign ++ (ds ++ rest)).takeWhile isSign = Sign.text sign ∧
      (Sign.text sign ++ (ds ++ rest)).dropWhile isSign = ds ++ rest := by
  obtain ⟨d, tail, rfl⟩ := List.exists_cons_of_ne_nil hne
  have hd := isSign_of_isDigit (hds d List.mem_cons_self)
  have hplus : isSign '+' = true := rfl
  have hminus : isSign '-' = true := rfl
  rcases sign with _ | _ | _ <;> simp [Sign.text, hd, hplus, hminus]

/-- A written exponent is finite, and denotes its value. -/
theorem exponentOf_signed (p : Power) : exponentOf p.signed = .finite p.value := by
  obtain ⟨hsign, hdigits⟩ := span_isSign p.sign p.digits_ne_nil p.isRun_digits []
  rw [List.append_nil] at hsign hdigits
  have hrun : p.digits.all Char.isDigit = true := List.all_eq_true.mpr p.isRun_digits
  unfold exponentOf Power.signed Power.value
  rw [hdigits, hsign]
  rcases p.sign with _ | _ | _ <;>
    simp [Sign.text, Sign.factor, hrun, p.digits_ne_nil]

namespace Numeral

variable (n : Numeral)

theorem mem_mantissa {c : Char} (h : c ∈ n.mantissa) : c.isDigit = true ∨ c = '.' := by
  unfold mantissa at h
  rcases List.mem_append.mp h with h | h
  · exact Or.inl (n.isRun_whole c h)
  · cases hf : n.fraction with
    | none => simp [hf] at h
    | some ds =>
      rw [hf] at h
      rcases List.mem_cons.mp h with rfl | h
      · exact Or.inr rfl
      · exact Or.inl (n.isRun_fraction ds hf c h)

/-- The mark of an exponent is not part of the mantissa. -/
theorem not_mark_of_mem_mantissa {c : Char} (h : c ∈ n.mantissa) :
    (!(c == 'e' || c == 'E')) = true := by
  rw [Bool.not_eq_true', Bool.eq_false_iff]
  intro hmark
  simp only [Bool.or_eq_true, beq_iff_eq] at hmark
  rcases n.mem_mantissa h with hdigit | rfl
  · rcases hmark with rfl | rfl <;> cases hdigit
  · rcases hmark with hmark | hmark <;> cases hmark

/-- **A numeral is whole if its exponent is no less than its scale.** -/
theorem isWhole_text : isWhole n.text = true ↔ mantissaScale n.mantissa ≤ n.exponent := by
  have hunsigned : n.text.dropWhile isSign = n.mantissa ++ n.power.elim [] Power.text := by
    unfold text mantissa
    rw [List.append_assoc]
    exact (span_isSign n.sign n.whole_ne_nil n.isRun_whole _).2
  have hmark : ∀ c ∈ n.mantissa, (!(c == 'e' || c == 'E')) = true :=
    fun c => n.not_mark_of_mem_mantissa
  unfold isWhole exponent
  simp only [hunsigned, List.takeWhile_append_of_pos hmark, List.dropWhile_append_of_pos hmark]
  cases n.power with
  | none => simp [scaleIsWhole]
  | some p =>
    have hstart : ∀ cs, ((if p.capital then 'E' else 'e') :: cs).dropWhile
        (fun c => !(c == 'e' || c == 'E')) = (if p.capital then 'E' else 'e') :: cs ∧
        ((if p.capital then 'E' else 'e') :: cs).takeWhile
          (fun c => !(c == 'e' || c == 'E')) = [] := by
      intro cs
      cases p.capital <;> exact ⟨rfl, rfl⟩
    simp only [Option.elim_some, Power.text, (hstart _).1, (hstart _).2, List.append_nil,
      exponentOf_signed, scaleIsWhole]
    exact decide_eq_true_iff

end Numeral

/-! ### Zeros at the end -/

theorem dropTrailingZeros_concat_zero (cs : List Char) :
    dropTrailingZeros (cs ++ ['0']) = dropTrailingZeros cs := by
  simp [dropTrailingZeros]

theorem dropTrailingZeros_concat {c : Char} (h : c ≠ '0') (cs : List Char) :
    dropTrailingZeros (cs ++ [c]) = cs ++ [c] := by
  simp [dropTrailingZeros, h]

/-- Only zeros are dropped. -/
theorem exists_zeros (cs : List Char) :
    ∃ k, cs = dropTrailingZeros cs ++ List.replicate k '0' := by
  induction cs using List.reverseRecOn with
  | nil => exact ⟨0, rfl⟩
  | append_singleton cs c ih =>
    by_cases hc : c = '0'
    · obtain ⟨k, hk⟩ := ih
      refine ⟨k + 1, ?_⟩
      rw [hc, dropTrailingZeros_concat_zero, List.replicate_succ', ← List.append_assoc, ← hk]
    · exact ⟨0, by rw [dropTrailingZeros_concat hc]; simp⟩

theorem dropTrailingZeros_append_of_ne_nil {ds : List Char} (h : dropTrailingZeros ds ≠ [])
    (cs : List Char) : dropTrailingZeros (cs ++ ds) = cs ++ dropTrailingZeros ds := by
  induction ds using List.reverseRecOn with
  | nil => exact absurd rfl h
  | append_singleton ds d ih =>
    rw [← List.append_assoc]
    by_cases hd : d = '0'
    · rw [hd, dropTrailingZeros_concat_zero] at h ⊢
      rw [dropTrailingZeros_concat_zero, ih h]
    · rw [dropTrailingZeros_concat hd, dropTrailingZeros_concat hd, List.append_assoc]

theorem dropTrailingZeros_append_of_eq_nil {ds : List Char} (h : dropTrailingZeros ds = [])
    (cs : List Char) : dropTrailingZeros (cs ++ ds) = dropTrailingZeros cs := by
  obtain ⟨k, hk⟩ := exists_zeros ds
  rw [h, List.nil_append] at hk
  rw [hk]
  clear hk
  induction k with
  | zero => simp
  | succ k ih => rw [List.replicate_succ', ← List.append_assoc, dropTrailingZeros_concat_zero, ih]

theorem byteLength_of_isRun {ds : List Char} (h : IsRun ds) : byteLength ds = ds.length := by
  induction ds with
  | nil => rfl
  | cons d ds ih =>
    have hd := h d List.mem_cons_self
    have hsize : d.utf8Size = 1 := by
      simp only [Char.isDigit, Bool.and_eq_true, decide_eq_true_eq] at hd
      rw [Char.utf8Size_eq_one_iff]
      exact UInt32.le_trans hd.2 (by decide)
    have hrest := ih fun c hc => h c (List.mem_cons_of_mem _ hc)
    simp only [byteLength, List.foldr_cons, hsize, List.length_cons] at hrest ⊢
    omega

namespace Numeral

variable (n : Numeral)

/-- All digits of the mantissa. -/
def digits : List Char := n.whole ++ n.places

theorem isRun_digits : IsRun n.digits := by
  intro c hc
  rcases List.mem_append.mp hc with h | h
  · exact n.isRun_whole c h
  · exact n.isRun_places c h

/-- The digits before the point are all up to the first point. -/
theorem not_point_of_mem_whole : ∀ c ∈ n.whole, (c != '.') = true := by
  intro c hc
  rw [bne_iff_ne]
  rintro rfl
  cases n.isRun_whole _ hc

theorem takeWhile_mantissa : n.mantissa.takeWhile (· != '.') = n.whole := by
  unfold mantissa
  rw [List.takeWhile_append_of_pos n.not_point_of_mem_whole]
  cases n.fraction <;> simp

theorem drop_mantissa : (n.mantissa.dropWhile (· != '.')).drop 1 = n.places := by
  unfold mantissa places
  rw [List.dropWhile_append_of_pos n.not_point_of_mem_whole]
  cases n.fraction <;> simp

/-- **The scale of a numeral:** its places less the zeros at the end of all its digits. -/
theorem mantissaScale_mantissa :
    mantissaScale n.mantissa =
      n.places.length - ((n.digits.length : ℤ) - (dropTrailingZeros n.digits).length) := by
  unfold mantissaScale digits
  simp only [takeWhile_mantissa, drop_mantissa]
  by_cases hzeros : dropTrailingZeros n.places = []
  · rw [hzeros, dropTrailingZeros_append_of_eq_nil hzeros, List.length_append]
    simp only [List.isEmpty_nil, if_true]
    omega
  · have hrun : IsRun (dropTrailingZeros n.places) := by
      obtain ⟨k, hk⟩ := exists_zeros n.places
      intro c hc
      exact n.isRun_places c (by rw [hk]; exact List.mem_append_left _ hc)
    rw [dropTrailingZeros_append_of_ne_nil hzeros, byteLength_of_isRun hrun, List.length_append,
      List.length_append, if_neg (by simpa using hzeros)]
    omega

end Numeral

/-! ### Values of digits -/

theorem value_concat (ds : List Char) (d : Char) :
    Digits.value 10 (ds ++ [d]) = 10 * Digits.value 10 ds + (hexValue d).getD 0 := by
  simp [Digits.value]

theorem value_append (ds es : List Char) :
    Digits.value 10 (ds ++ es) = Digits.value 10 ds * 10 ^ es.length + Digits.value 10 es := by
  induction es using List.reverseRecOn with
  | nil => simp [Digits.value]
  | append_singleton es e ih =>
    rw [← List.append_assoc, value_concat, value_concat, ih, List.length_append,
      List.length_singleton]
    ring

theorem value_zeros (k : ℕ) : Digits.value 10 (List.replicate k '0') = 0 := by
  induction k with
  | zero => rfl
  | succ k ih =>
    rw [List.replicate_succ', value_concat, ih]
    rfl

/-- The value of digits is that of the digits without the zeros at their end, times a power of ten
for every zero. -/
theorem value_dropTrailingZeros (ds : List Char) :
    Digits.value 10 ds = Digits.value 10 (dropTrailingZeros ds) *
      10 ^ (ds.length - (dropTrailingZeros ds).length) := by
  obtain ⟨k, hk⟩ := exists_zeros ds
  have hlength : ds.length - (dropTrailingZeros ds).length = k := by
    have := congrArg List.length hk
    simp only [List.length_append, List.length_replicate] at this
    omega
  rw [hlength]
  conv_lhs => rw [hk]
  rw [value_append, value_zeros, List.length_replicate, Nat.add_zero]

/-- Digits that do not end with a zero have a value without a factor ten. -/
theorem not_ten_dvd {ds : List Char} (hds : IsRun ds) (h : dropTrailingZeros ds ≠ []) :
    ¬ 10 ∣ Digits.value 10 (dropTrailingZeros ds) := by
  induction ds using List.reverseRecOn with
  | nil => exact absurd rfl h
  | append_singleton ds d ih =>
    by_cases hd : d = '0'
    · rw [hd, dropTrailingZeros_concat_zero] at h ⊢
      exact ih (fun c hc => hds c (List.mem_append_left _ hc)) h
    · have hdigit : d.isDigit = true := hds d (by simp)
      have hvalue : (hexValue d).getD 0 = d.toNat - 48 := by
        unfold hexValue
        rw [if_pos hdigit]
        rfl
      have hrange : 48 < d.toNat ∧ d.toNat ≤ 57 := by
        simp only [Char.isDigit, Bool.and_eq_true, decide_eq_true_eq] at hdigit
        have hlow : 48 ≤ d.toNat := hdigit.1
        have hne : d.toNat ≠ 48 := fun heq => hd (Char.toNat_inj.mp heq)
        exact ⟨by omega, hdigit.2⟩
      rw [dropTrailingZeros_concat hd, value_concat, hvalue]
      omega

/-! ### Values of numerals -/

theorem Sign.factor_eq (sign : Option Sign) : factor sign = 1 ∨ factor sign = -1 := by
  rcases sign with _ | _ | _
  · exact Or.inl rfl
  · exact Or.inl rfl
  · exact Or.inr rfl

/-- Without a factor ten, a number times a power of ten is an integer only if the power is one. -/
theorem den_eq_one_iff {k : ℕ} (hk : ¬ 10 ∣ k) (sign : Option Sign) (z : ℤ) :
    (Sign.factor sign * k * 10 ^ z : ℚ).den = 1 ↔ 0 ≤ z := by
  constructor
  · intro hden
    by_contra hneg
    obtain ⟨m, hm⟩ : ∃ m : ℕ, z = -((m + 1 : ℕ) : ℤ) := ⟨(-z).toNat - 1, by omega⟩
    have hnum := (Rat.den_eq_one_iff _).mp hden
    set i := (Sign.factor sign * k * 10 ^ z : ℚ).num
    have hshift : (i * 10 ^ (m + 1) : ℚ) = Sign.factor sign * k := by
      rw [hnum, hm, zpow_neg, zpow_natCast]
      field_simp
    have hdvd : (10 : ℤ) ∣ Sign.factor sign * k := by
      refine ⟨i * 10 ^ m, ?_⟩
      have hint : i * 10 ^ (m + 1) = Sign.factor sign * (k : ℤ) := by exact_mod_cast hshift
      rw [← hint]
      ring
    rcases Sign.factor_eq sign with h | h <;> rw [h] at hdvd <;> omega
  · intro hpos
    obtain ⟨m, rfl⟩ := Int.eq_ofNat_of_zero_le hpos
    rw [zpow_natCast]
    exact_mod_cast Rat.den_intCast (Sign.factor sign * k * 10 ^ m)

namespace Numeral

variable (n : Numeral)

/-- The digits of a numeral that are left without the zeros at their end. -/
def core : List Char := dropTrailingZeros n.digits

/-- **The value of a numeral:** the one of its digits without the zeros at their end, moved by the
scale and the exponent. -/
theorem value_eq :
    n.value = Sign.factor n.sign * Digits.value 10 n.core *
      10 ^ (n.exponent - mantissaScale n.mantissa) := by
  obtain ⟨k, hk⟩ := exists_zeros n.digits
  have hlength : n.digits.length = n.core.length + k := by
    have := congrArg List.length hk
    rwa [List.length_append, List.length_replicate] at this
  have hdigits := value_dropTrailingZeros n.digits
  have hzeros : n.digits.length - n.core.length = k := by omega
  rw [← core, hzeros, digits, value_append] at hdigits
  have hmantissa : (Digits.value 10 n.whole + Digits.value 10 n.places / 10 ^ n.places.length : ℚ) =
      Digits.value 10 n.core * 10 ^ k / 10 ^ n.places.length := by
    have hne : (10 : ℚ) ^ n.places.length ≠ 0 := pow_ne_zero _ (by norm_num)
    rw [eq_div_iff hne, add_mul, div_mul_cancel₀ _ hne]
    exact_mod_cast hdigits
  have hpower : (10 : ℚ) ^ (n.exponent - mantissaScale n.mantissa) =
      10 ^ n.exponent * 10 ^ k / 10 ^ n.places.length := by
    have hscale : n.exponent - mantissaScale n.mantissa = n.exponent + k - n.places.length := by
      rw [mantissaScale_mantissa, ← core]
      omega
    rw [hscale, zpow_sub₀ (by norm_num), zpow_add₀ (by norm_num), zpow_natCast, zpow_natCast]
  unfold value
  rw [hmantissa, hpower]
  ring

theorem not_ten_dvd_core (h : n.core ≠ []) : ¬ 10 ∣ Digits.value 10 n.core :=
  not_ten_dvd n.isRun_digits h

theorem value_eq_zero_iff : n.value = 0 ↔ n.core = [] := by
  rw [value_eq]
  constructor
  · intro hzero
    by_contra hcore
    have hvalue : Digits.value 10 n.core ≠ 0 := fun h =>
      n.not_ten_dvd_core hcore (h ▸ Nat.dvd_zero 10)
    have hfactor : Sign.factor n.sign ≠ 0 := by
      rcases Sign.factor_eq n.sign with h | h <;> rw [h] <;> decide
    have hpower : (10 : ℚ) ^ (n.exponent - mantissaScale n.mantissa) ≠ 0 :=
      zpow_ne_zero _ (by norm_num)
    simp [hvalue, hfactor, hpower] at hzero
  · intro hcore
    rw [hcore]
    simp [Digits.value]

end Numeral

/-- **The type of a numeral** is `Integer` exactly if it denotes an integer, but for the zeros with
an exponent that takes away more places than the whole part has digits. -/
theorem type_text (n : Numeral) :
    type (String.ofList n.text) =
      if n.value.den = 1 ∧ (n.value = 0 → -n.exponent ≤ n.whole.length) then .integer
      else .float := by
  have hwhole : isWhole n.text = true ↔
      n.value.den = 1 ∧ (n.value = 0 → -n.exponent ≤ n.whole.length) := by
    rw [n.isWhole_text]
    by_cases hcore : n.core = []
    · have hzero := n.value_eq_zero_iff.mpr hcore
      have hscale : mantissaScale n.mantissa = -n.whole.length := by
        rw [n.mantissaScale_mantissa, ← Numeral.core, hcore, Numeral.digits, List.length_append]
        simp
      rw [hscale, hzero]
      simp only [Rat.den_ofNat, true_and, forall_const]
      omega
    · have hne : n.value ≠ 0 := fun h => hcore (n.value_eq_zero_iff.mp h)
      have hden : n.value.den = 1 ↔ 0 ≤ n.exponent - mantissaScale n.mantissa := by
        rw [n.value_eq]
        exact den_eq_one_iff (n.not_ten_dvd_core hcore) n.sign _
      rw [hden]
      simp only [hne, false_implies, and_true]
      omega
  unfold type
  rw [String.toList_ofList]
  simp only [hwhole]

/-- **Not every literal that denotes an integer is an `Integer`:** zero is an integer, but not as
`0e-2`. -/
theorem zero_of_type_float :
    ∃ n : Numeral, String.ofList n.text = "0e-2" ∧ n.value = 0 ∧
      type (String.ofList n.text) = .float := by
  let power : Power := ⟨false, some .minus, ['2'], by simp, by simp [IsRun]⟩
  let n : Numeral := ⟨none, ['0'], none, some power, by simp, by simp [IsRun], by simp⟩
  exact ⟨n, rfl, n.value_eq_zero_iff.mpr rfl, by decide⟩

end DomainModel.Literal
