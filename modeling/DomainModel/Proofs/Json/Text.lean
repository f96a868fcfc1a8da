import DomainModel.Json.Reader
import DomainModel.Json.Printer

/-! # Written strings are read back

`Text.scan` takes a written character apart into one piece, and `Text.ofPieces` makes the same
character of it. -/

namespace DomainModel.Json

namespace Text

theorem hexUnit_hexDigit {n : Nat} (h : n < 32) :
    hexUnit '0' '0' (hexDigit (n / 16)) (hexDigit (n % 16)) = some n := by
  have hall : ∀ n < 32, hexUnit '0' '0' (hexDigit (n / 16)) (hexDigit (n % 16)) = some n := by
    decide
  exact hall n h

theorem ofPieces_unit {u : Nat} (h : u < 32) (pieces : List Piece) :
    ofPieces (.unit u :: pieces) = (Char.ofNat u :: ·) <$> ofPieces pieces := by
  have hhigh : isHigh u = false := by
    unfold isHigh
    simp
    omega
  have hlow : isLow u = false := by
    unfold isLow
    simp
    omega
  rw [ofPieces.eq_def]
  simp only [hhigh, hlow, Bool.false_eq_true, if_false]

/-- A written character is one piece, which denotes it. -/
theorem scan_escapeChar (c : Char) : ∃ piece,
    (∀ rest, scan (escapeChar c ++ rest) = do
      let (pieces, tail) ← scan rest
      return (piece :: pieces, tail)) ∧
    ∀ pieces, ofPieces (piece :: pieces) = (c :: ·) <$> ofPieces pieces := by
  unfold escapeChar
  split
  · exact ⟨.char '"', fun _ => rfl, fun _ => rfl⟩
  · exact ⟨.char '\\', fun _ => rfl, fun _ => rfl⟩
  · exact ⟨.char '\x08', fun _ => rfl, fun _ => rfl⟩
  · exact ⟨.char '\x0c', fun _ => rfl, fun _ => rfl⟩
  · exact ⟨.char '\n', fun _ => rfl, fun _ => rfl⟩
  · exact ⟨.char '\r', fun _ => rfl, fun _ => rfl⟩
  · exact ⟨.char '\t', fun _ => rfl, fun _ => rfl⟩
  · next hquote hslash _ _ _ _ _ =>
    split
    · next hcontrol =>
      have hlt : c.toNat < 32 := hcontrol
      refine ⟨.unit c.toNat, fun rest => ?_, fun pieces => ?_⟩
      · simp only [List.cons_append, List.nil_append, scan, hexUnit_hexDigit hlt]
        rfl
      · rw [ofPieces_unit hlt, Char.ofNat_toNat]
    · next hcontrol =>
      refine ⟨.char c, fun rest => ?_, fun _ => rfl⟩
      have hplain : ¬ (decide (c < ' ') || c == '\\') = true := by
        simp only [Bool.or_eq_true, decide_eq_true_eq, beq_iff_eq, not_or]
        exact ⟨hcontrol, hslash⟩
      rw [List.singleton_append, scan, if_neg hplain]
      · exact hquote
      · exact fun _ _ _ _ _ h => absurd h hslash
      · exact fun _ _ h => absurd h hslash

/-- What is written of the characters of a string denotes them. -/
theorem scan_flatMap_escapeChar (cs rest : List Char) : ∃ pieces,
    scan (cs.flatMap escapeChar ++ '"' :: rest) = some (pieces, rest) ∧
      ofPieces pieces = some cs := by
  induction cs with
  | nil => exact ⟨[], rfl, rfl⟩
  | cons c cs ih =>
    obtain ⟨piece, hscan, hpiece⟩ := scan_escapeChar c
    obtain ⟨pieces, hpieces, hcs⟩ := ih
    refine ⟨piece :: pieces, ?_, ?_⟩
    · rw [List.flatMap_cons, List.append_assoc, hscan, hpieces]
      rfl
    · rw [hpiece, hcs]
      rfl

end Text

/-- **A written string is read back.** -/
theorem readText_escape (s : String) (rest : List Char) :
    ∃ cs, (Text.escape s).toList ++ rest = '"' :: cs ∧ readText cs = some (some s, rest) := by
  obtain ⟨pieces, hscan, hpieces⟩ := Text.scan_flatMap_escapeChar s.toList rest
  refine ⟨s.toList.flatMap Text.escapeChar ++ '"' :: rest, ?_, ?_⟩
  · simp [Text.escape]
  · simp [readText, hscan, hpieces]

end DomainModel.Json
