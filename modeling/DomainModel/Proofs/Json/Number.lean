import DomainModel.Json.Reader

/-! # Written handles are read back

A handle is written as the decimal digits of a 32-bit word: a lexeme without sign, fraction and
exponent, whose value is within the range of doubles by far. -/

namespace DomainModel

namespace Digits

/-- The value of digits behind a number. -/
def valueFrom (base start : Nat) (ds : List Char) : Nat :=
  ds.foldl (fun n c => base * n + (hexValue c).getD 0) start

theorem valueFrom_eq_ofDigitChars {base : Nat} {ds : List Char} (h : ∀ c ∈ ds, c.isDigit = true)
    (start : Nat) : valueFrom base start ds = Nat.ofDigitChars base ds start := by
  induction ds generalizing start with
  | nil => rfl
  | cons c ds ih =>
    have hc : (hexValue c).getD 0 = c.toNat - '0'.toNat := by
      unfold hexValue
      rw [if_pos (h c (by simp))]
      rfl
    rw [Nat.ofDigitChars_cons, ← hc, ← ih fun d hd => h d (by simp [hd])]
    rfl

theorem isDigit_of_mem_toDigits {n : Nat} {c : Char} (h : c ∈ Nat.toDigits 10 n) :
    c.isDigit = true :=
  Nat.isDigit_of_mem_toDigits (by decide) (by decide) h

theorem valueFrom_toDigits (n : Nat) : valueFrom 10 0 (Nat.toDigits 10 n) = n := by
  rw [valueFrom_eq_ofDigitChars fun c hc => isDigit_of_mem_toDigits hc]
  exact Nat.ofDigitChars_toDigits (by decide) (by decide)

theorem le_valueFrom {base : Nat} (hbase : 0 < base) (ds : List Char) (start : Nat) :
    start ≤ valueFrom base start ds := by
  induction ds generalizing start with
  | nil => exact Nat.le_refl _
  | cons c ds ih =>
    have hlonger := ih (base * start + (hexValue c).getD 0)
    have hstart : start ≤ base * start := Nat.le_mul_of_pos_left _ hbase
    unfold valueFrom at hlonger ⊢
    rw [List.foldl_cons]
    omega

theorem head?_toDigits_append (n : Nat) (rest : List Char) :
    (Nat.toDigits 10 n ++ rest).head? = (Nat.toDigits 10 n).head? := by
  cases h : Nat.toDigits 10 n with
  | nil => exact absurd h Nat.toDigits_ne_nil
  | cons d ds => rfl

/-- Only zero is written with a leading zero. -/
theorem eq_zero_of_head_toDigits {n : Nat} (h : (Nat.toDigits 10 n).head? = some '0') : n = 0 := by
  induction n using Nat.strongRecOn with
  | ind n ih =>
    rcases Nat.lt_or_ge n 10 with hlt | hge
    · rw [Nat.toDigits_of_lt_base hlt] at h
      simpa using h
    · rw [Nat.toDigits_of_base_le (by decide) hge, head?_toDigits_append] at h
      have := ih (n / 10) (by omega) h
      omega

end Digits

open Digits

namespace Json

theorem toList_toString (n : Nat) : (toString n).toList = Nat.toDigits 10 n := by simp

/-- The lexeme of a natural number denotes it. -/
theorem natOfLexeme?_toString (n : Nat) : natOfLexeme? (toString n) = some n := by
  have hall : (Nat.toDigits 10 n).all Char.isDigit = true :=
    List.all_eq_true.mpr fun c hc => isDigit_of_mem_toDigits hc
  have hvalue : value 10 (Nat.toDigits 10 n) = n := valueFrom_toDigits n
  unfold natOfLexeme?
  rw [toList_toString]
  simp [hall, hvalue]

/-- The text that may follow a value: nothing, the next item, or a closing bracket below. -/
def Ends (rest : List Char) : Prop := ∀ c ∈ rest.head?, c = ',' ∨ c = '\n'

namespace Lexeme

/-- The parts of a written natural number. -/
def ofNat (n : Nat) : Lexeme := ⟨[], Nat.toDigits 10 n, [], [], []⟩

section

variable {rest : List Char} (h : Ends rest)
include h

theorem not_isDigit_head {c : Char} (hc : c ∈ rest.head?) : c.isDigit = false := by
  rcases h c hc with rfl | rfl <;> rfl

theorem takeWhile_isDigit : rest.takeWhile Char.isDigit = [] := by
  cases rest with
  | nil => rfl
  | cons c cs => rw [List.takeWhile_cons, not_isDigit_head h rfl, if_neg (by simp)]

theorem dropWhile_isDigit : rest.dropWhile Char.isDigit = rest := by
  cases rest with
  | nil => rfl
  | cons c cs => rw [List.dropWhile_cons, not_isDigit_head h rfl, if_neg (by simp)]

theorem scanFraction_of_ends : scanFraction rest = some ([], rest) := by
  unfold scanFraction
  split
  · rcases h '.' rfl with h | h <;> cases h
  · rfl

theorem scanMark_of_ends : scanMark rest = ([], rest) := by
  have hmark : ∀ c ∈ rest.head?, (c == 'e' || c == 'E') = false := by
    intro c hc
    rcases h c hc with rfl | rfl <;> rfl
  unfold scanMark
  split
  · rw [hmark _ rfl]
    rfl
  · rw [hmark _ rfl]
    rfl
  · rfl

theorem scanWhole_toDigits (n : Nat) :
    scanWhole (Nat.toDigits 10 n ++ rest) = some (Nat.toDigits 10 n, rest) := by
  have hall : ∀ c ∈ Nat.toDigits 10 n, c.isDigit = true := fun _ => isDigit_of_mem_toDigits
  unfold scanWhole
  split
  · next tail heq =>
    have hzero : n = 0 := by
      refine eq_zero_of_head_toDigits ?_
      rw [← head?_toDigits_append n rest, heq]
      rfl
    subst hzero
    simpa using heq.symm
  · unfold digits
    rw [List.takeWhile_append_of_pos hall, List.dropWhile_append_of_pos hall, takeWhile_isDigit h,
      dropWhile_isDigit h, List.append_nil]
    split
    · next hnil => exact absurd hnil Nat.toDigits_ne_nil
    · rfl

/-- A written natural number is scanned to its end. -/
theorem scan_toDigits (n : Nat) : scan (Nat.toDigits 10 n ++ rest) = some (ofNat n, rest) := by
  unfold scan
  split
  next sign cs heq =>
    split at heq
    · next tail hminus =>
      have hhead := head?_toDigits_append n rest
      rw [hminus] at hhead
      have hdigit := isDigit_of_mem_toDigits (List.mem_of_head? hhead.symm)
      cases hdigit
    · cases heq
      simp only [scanWhole_toDigits h, scanFraction_of_ends h, scanMark_of_ends h,
        Option.bind_eq_bind, Option.bind_some]
      rfl

end

theorem fill_eq {start : Nat} {ds : List Char} (h : valueFrom 10 start ds < UInt64.size) :
    fill start ds = (valueFrom 10 start ds, []) := by
  induction ds generalizing start with
  | nil => rfl
  | cons c ds ih =>
    have hlonger : 10 * start + value 10 [c] ≤ valueFrom 10 start (c :: ds) := by
      have := le_valueFrom (by decide : 0 < 10) ds (10 * start + value 10 [c])
      simpa [valueFrom, value] using this
    rw [fill, if_pos (by omega)]
    simpa [valueFrom, value] using ih (by simpa [valueFrom, value] using h)

/-- A 32-bit word has a value. -/
theorem inRange_ofNat {n : Nat} (h : n < UInt32.size) : (ofNat n).inRange = true := by
  have hword : n < UInt64.size := Nat.lt_trans h (by decide)
  have hfill : fill 0 (Nat.toDigits 10 n) = (n, []) := by
    rw [fill_eq (by rwa [valueFrom_toDigits]), valueFrom_toDigits]
  have hparts : (ofNat n).parts = (n, 0) := by
    unfold parts ofNat
    simp only [hfill]
    rfl
  have hprecise : n < Nat.pow 2 Double.precision := Nat.lt_trans h (by decide)
  have hfinite : n < Double.overflow := Nat.lt_trans h (by decide +kernel)
  have hone : Double.nearest (Nat.pow 10 (0 : Int).toNat) = 1 := by decide
  unfold inRange isFiniteProduct
  rw [hparts]
  split
  · rfl
  · split
    · next hgreat => cases hgreat
    · rw [hone, Double.nearest_of_lt hprecise, Nat.mul_one]
      exact decide_eq_true hfinite

end Lexeme

/-- **A written handle is read back.** -/
theorem readNumber_toString {n : Nat} (h : n < UInt32.size) {rest : List Char} (hrest : Ends rest) :
    readNumber ((toString n).toList ++ rest) = some (number (toString n), rest) := by
  have htext : String.ofList (Lexeme.ofNat n).text = toString n := by
    simp [Lexeme.text, Lexeme.ofNat, Nat.repr_eq_ofList_toDigits]
  unfold readNumber
  rw [toList_toString, Lexeme.scan_toDigits hrest]
  simp only [Option.bind_eq_bind, Option.bind_some, Lexeme.inRange_ofNat h, if_true, htext]
  rfl

end Json

end DomainModel
