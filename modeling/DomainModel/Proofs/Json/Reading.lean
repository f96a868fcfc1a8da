import DomainModel.Proofs.Json.Number
import DomainModel.Proofs.Json.Text

/-! # Written values are read back

A `Plain` value is one that a model is written as. Its text is read back by `Json.parse`
(`parse_pretty`): a value of `n` characters takes fuel `2 * n`, since its text is longer than that
of its parts by a bracket or a separator for every step. -/

namespace DomainModel.Json

/-- Every number is a handle, and nothing is unreadable. -/
inductive Plain : Json → Prop where
  | null : Plain null
  | bool (b : Bool) : Plain (bool b)
  | string (s : String) : Plain (string s)
  | ofNat {n : Nat} (h : n < UInt32.size) : Plain (ofNat n)
  | array {items : List Json} (h : ∀ v ∈ items, Plain v) : Plain (array items)
  | object {members : List (String × Json)} (h : ∀ m ∈ members, Plain m.2) : Plain (object members)

/-! ### Blanks -/

theorem skipBlanks_newLine (level : Nat) (cs : List Char) :
    skipBlanks ((newLine level).toList ++ cs) = skipBlanks cs := by
  unfold skipBlanks newLine
  rw [String.toList_ofList]
  refine List.dropWhile_append_of_pos fun c hc => ?_
  rcases List.mem_cons.mp hc with rfl | hc
  · rfl
  · rw [List.eq_of_mem_replicate hc]
    rfl

theorem ends_cons {c : Char} (h : c = ',' ∨ c = '\n') (cs : List Char) : Ends (c :: cs) := by
  rintro d ⟨⟩
  exact h

theorem ends_newLine (level : Nat) (cs : List Char) : Ends ((newLine level).toList ++ cs) := by
  unfold newLine
  rw [String.toList_ofList]
  exact ends_cons (Or.inr rfl) _

/-! ### Starts -/

/-- The text starts with a character that is neither blank nor a closing bracket. -/
def Starts (cs : List Char) : Prop := ∃ c, cs.head? = some c ∧ isBlank c = false ∧ c ≠ ']'

theorem starts_of_isDigit {d : Char} (h : d.isDigit = true) (ds : List Char) :
    Starts (d :: ds) := by
  refine ⟨d, rfl, ?_, ?_⟩
  · rw [Bool.eq_false_iff]
    intro hblank
    unfold isBlank at hblank
    simp only [Bool.or_eq_true, beq_iff_eq] at hblank
    rcases hblank with ((rfl | rfl) | rfl) | rfl <;> cases h
  · rintro rfl
    cases h

theorem starts_prettyAt {v : Json} (h : Plain v) (level : Nat) :
    Starts (v.prettyAt level).toList := by
  cases h with
  | null => exact ⟨'n', by simp [prettyAt], rfl, by decide⟩
  | bool b =>
    cases b with
    | true => exact ⟨'t', by simp [prettyAt], rfl, by decide⟩
    | false => exact ⟨'f', by simp [prettyAt], rfl, by decide⟩
  | string s => exact ⟨'"', by simp [prettyAt, Text.escape], rfl, by decide⟩
  | @ofNat n hn =>
    rw [Json.ofNat, prettyAt, toList_toString]
    cases hds : Nat.toDigits 10 n with
    | nil => exact absurd hds Nat.toDigits_ne_nil
    | cons d ds => exact starts_of_isDigit (Digits.isDigit_of_mem_toDigits (by rw [hds]; simp)) ds
  | @array items hitems => cases items <;> exact ⟨'[', by simp [prettyAt], rfl, by decide⟩
  | @object members hmembers =>
    cases members <;> exact ⟨'\x7b', by simp [prettyAt], rfl, by decide⟩

theorem Starts.append {cs : List Char} (h : Starts cs) (rest : List Char) :
    Starts (cs ++ rest) := by
  obtain ⟨c, hc, hrest⟩ := h
  exact ⟨c, by rw [List.head?_append, hc]; rfl, hrest⟩

theorem Starts.length_pos {cs : List Char} (h : Starts cs) : 0 < cs.length := by
  obtain ⟨c, hc, -⟩ := h
  obtain ⟨tail, rfl⟩ := List.head?_eq_some_iff.mp hc
  exact Nat.succ_pos _

theorem Starts.skipBlanks {cs : List Char} (h : Starts cs) : skipBlanks cs = cs := by
  obtain ⟨c, hc, hblank, -⟩ := h
  obtain ⟨tail, rfl⟩ := List.head?_eq_some_iff.mp hc
  exact skipBlanks_cons hblank tail

/-! ### One step of reading -/

theorem readValue_string (fuel : Nat) (s : String) (rest : List Char) :
    readValue (fuel + 1) ((Text.escape s).toList ++ rest) = some (string s, rest) := by
  obtain ⟨cs, hcs, hread⟩ := readText_escape s rest
  rw [hcs, readValue]
  simp only [skipBlanks_cons (rfl : isBlank '"' = false), hread]
  rfl

theorem readValue_ofNat (fuel : Nat) {n : Nat} (h : n < UInt32.size) {rest : List Char}
    (hrest : Ends rest) :
    readValue (fuel + 1) ((toString n).toList ++ rest) = some (ofNat n, rest) := by
  have hread := readNumber_toString h hrest
  rw [toList_toString] at hread ⊢
  cases hds : Nat.toDigits 10 n with
  | nil => exact absurd hds Nat.toDigits_ne_nil
  | cons d ds =>
    have hdigit : d.isDigit = true := Digits.isDigit_of_mem_toDigits (by rw [hds]; simp)
    have hne : ∀ c tail, c.isDigit = false → d :: ds ++ rest ≠ c :: tail := by
      rintro c tail hc heq
      rw [(List.cons.inj heq).1, hc] at hdigit
      cases hdigit
    rw [hds] at hread
    rw [readValue, ((starts_of_isDigit hdigit ds).append rest).skipBlanks]
    split
    · next heq => exact absurd heq (hne _ _ rfl)
    · next heq => exact absurd heq (hne _ _ rfl)
    · next heq => exact absurd heq (hne _ _ rfl)
    · next heq => exact absurd heq (hne _ _ rfl)
    · next heq => exact absurd heq (hne _ _ rfl)
    · next heq => exact absurd heq (hne _ _ rfl)
    · exact hread

theorem readValue_items (fuel : Nat) {cs : List Char} (h : Starts (skipBlanks cs)) :
    readValue (fuel + 1) ('[' :: cs) = do
      let (items, rest) ← readItems fuel cs
      return (array items, rest) := by
  obtain ⟨c, hc, -, hne⟩ := h
  rw [readValue]
  simp only [skipBlanks_cons (rfl : isBlank '[' = false)]
  split
  · next tail heq =>
    rw [heq] at hc
    cases hc
    exact absurd rfl hne
  · rw [readItems_skipBlanks]

theorem readValue_members (fuel : Nat) {cs : List Char} (h : (skipBlanks cs).head? = some '"') :
    readValue (fuel + 1) ('\x7b' :: cs) = do
      let (members, rest) ← readMembers fuel cs
      return (ofMembers members, rest) := by
  rw [readValue]
  simp only [skipBlanks_cons (rfl : isBlank '\x7b' = false)]
  split
  · next tail heq =>
    rw [heq] at h
    cases h
  · rw [readMembers_skipBlanks]

theorem readItems_last {fuel : Nat} {cs tail rest : List Char} {v : Json}
    (hv : readValue fuel cs = some (v, tail)) (htail : skipBlanks tail = ']' :: rest) :
    readItems (fuel + 1) cs = some ([v], rest) := by
  rw [readItems, hv]
  simp [htail]

theorem readItems_next {fuel : Nat} {cs tail more rest : List Char} {v : Json} {vs : List Json}
    (hv : readValue fuel cs = some (v, tail)) (htail : skipBlanks tail = ',' :: more)
    (hvs : readItems fuel more = some (vs, rest)) :
    readItems (fuel + 1) cs = some (v :: vs, rest) := by
  rw [readItems, hv]
  simp [htail, hvs]

/-- The key of a member is read up to its value. -/
theorem readMembers_key (fuel : Nat) (key : String) (cs : List Char) :
    readMembers (fuel + 1) ((Text.escape key).toList ++ ':' :: cs) = (do
      let (v, rest) ← readValue fuel cs
      match skipBlanks rest with
      | ',' :: rest =>
        let (ms, rest) ← readMembers fuel rest
        return ((some key, v) :: ms, rest)
      | '\x7d' :: rest => return ([(some key, v)], rest)
      | _ => none) := by
  obtain ⟨text, htext, hread⟩ := readText_escape key (':' :: cs)
  rw [htext, readMembers, skipBlanks_cons (rfl : isBlank '"' = false)]
  change readText text >>= _ = _
  rw [hread]
  rfl

theorem readMembers_last {fuel : Nat} {key : String} {cs tail rest : List Char} {v : Json}
    (hv : readValue fuel cs = some (v, tail)) (htail : skipBlanks tail = '\x7d' :: rest) :
    readMembers (fuel + 1) ((Text.escape key).toList ++ ':' :: cs) =
      some ([(some key, v)], rest) := by
  rw [readMembers_key, hv]
  simp [htail]

theorem readMembers_next {fuel : Nat} {key : String} {cs tail more rest : List Char} {v : Json}
    {ms : List (Option String × Json)} (hv : readValue fuel cs = some (v, tail))
    (htail : skipBlanks tail = ',' :: more) (hms : readMembers fuel more = some (ms, rest)) :
    readMembers (fuel + 1) ((Text.escape key).toList ++ ':' :: cs) =
      some ((some key, v) :: ms, rest) := by
  rw [readMembers_key, hv]
  simp [htail, hms]

/-! ### Whole values -/

/-- The text of a value is read back, whatever follows. -/
def ReadsBack (v : Json) : Prop :=
  ∀ level rest fuel, Ends rest → 2 * (v.prettyAt level).toList.length ≤ fuel →
    readValue fuel ((v.prettyAt level).toList ++ rest) = some (v, rest)

theorem newLine_length (level : Nat) : 0 < (newLine level).toList.length := by
  simp [newLine]

/-- The text of a value is read back from the next line. -/
theorem ReadsBack.newLine {v : Json} (h : ReadsBack v) (level : Nat) {rest : List Char}
    {fuel : Nat} (hrest : Ends rest) (hfuel : 2 * (v.prettyAt level).toList.length ≤ fuel) :
    readValue fuel ((Json.newLine level).toList ++ ((v.prettyAt level).toList ++ rest)) =
      some (v, rest) := by
  rw [← readValue_skipBlanks, skipBlanks_newLine, readValue_skipBlanks]
  exact h level rest fuel hrest hfuel

/-- The text of a value is read back from behind a colon. -/
theorem ReadsBack.blank {v : Json} (h : ReadsBack v) (level : Nat) {rest : List Char} {fuel : Nat}
    (hrest : Ends rest) (hfuel : 2 * (v.prettyAt level).toList.length ≤ fuel) :
    readValue fuel (' ' :: ((v.prettyAt level).toList ++ rest)) = some (v, rest) := by
  have hblank : skipBlanks (' ' :: ((v.prettyAt level).toList ++ rest)) =
      skipBlanks ((v.prettyAt level).toList ++ rest) := rfl
  rw [← readValue_skipBlanks, hblank, readValue_skipBlanks]
  exact h level rest fuel hrest hfuel

theorem starts_prettyItems {v : Json} (hv : Plain v) (vs : List Json) (level : Nat)
    (rest : List Char) : Starts (skipBlanks ((prettyItems level (v :: vs)).toList ++ rest)) := by
  have hstarts := fun tail => (starts_prettyAt hv level).append tail
  cases vs with
  | nil =>
    simp only [prettyItems, String.toList_append, List.append_assoc, skipBlanks_newLine]
    rw [(hstarts _).skipBlanks]
    exact hstarts _
  | cons w ws =>
    simp only [prettyItems, String.toList_append, List.append_assoc, skipBlanks_newLine]
    rw [(hstarts _).skipBlanks]
    exact hstarts _

theorem head?_prettyMembers (m : String × Json) (ms : List (String × Json)) (level : Nat)
    (rest : List Char) :
    (skipBlanks ((prettyMembers level (m :: ms)).toList ++ rest)).head? = some '"' := by
  obtain ⟨key, v⟩ := m
  have hkey : ∀ tail, (skipBlanks ((Text.escape key).toList ++ tail)).head? = some '"' := by
    intro tail
    obtain ⟨cs, hcs, -⟩ := readText_escape key tail
    rw [hcs, skipBlanks_cons rfl]
    rfl
  cases ms with
  | nil =>
    simp only [prettyMembers, String.toList_append, List.append_assoc, skipBlanks_newLine]
    exact hkey _
  | cons w ws =>
    simp only [prettyMembers, String.toList_append, List.append_assoc, skipBlanks_newLine]
    exact hkey _

/-- The items of an array are read back up to its closing bracket. -/
theorem readItems_prettyItems {items : List Json} (hne : items ≠ [])
    (h : ∀ v ∈ items, ReadsBack v) (level closing fuel : Nat) (rest : List Char)
    (hfuel : 2 * (prettyItems level items).toList.length ≤ fuel) :
    readItems fuel
      ((prettyItems level items).toList ++ ((newLine closing).toList ++ ']' :: rest)) =
        some (items, rest) := by
  induction items generalizing fuel with
  | nil => exact absurd rfl hne
  | cons v vs ih =>
    have hv := h v (by simp)
    have hline := newLine_length level
    cases vs with
    | nil =>
      simp only [prettyItems, String.toList_append, List.length_append] at hfuel
      obtain ⟨fuel, rfl⟩ : ∃ f, fuel = f + 1 := ⟨fuel - 1, by omega⟩
      simp only [prettyItems, String.toList_append, List.append_assoc]
      refine readItems_last (hv.newLine level (ends_newLine closing _) (by omega)) ?_
      rw [skipBlanks_newLine]
      rfl
    | cons w ws =>
      simp only [prettyItems, String.toList_append, List.length_append] at hfuel
      obtain ⟨fuel, rfl⟩ : ∃ f, fuel = f + 1 := ⟨fuel - 1, by omega⟩
      simp only [prettyItems, String.toList_append, List.append_assoc]
      refine readItems_next (hv.newLine level (ends_cons (Or.inl rfl) _) (by omega)) rfl ?_
      exact ih (by simp) (fun u hu => h u (by simp [hu])) fuel (by omega)

/-- The members of an object are read back up to its closing brace. -/
theorem readMembers_prettyMembers {members : List (String × Json)} (hne : members ≠ [])
    (h : ∀ m ∈ members, ReadsBack m.2) (level closing fuel : Nat) (rest : List Char)
    (hfuel : 2 * (prettyMembers level members).toList.length ≤ fuel) :
    readMembers fuel
      ((prettyMembers level members).toList ++ ((newLine closing).toList ++ '\x7d' :: rest)) =
        some (members.map fun m => (some m.1, m.2), rest) := by
  induction members generalizing fuel with
  | nil => exact absurd rfl hne
  | cons m ms ih =>
    obtain ⟨key, v⟩ := m
    have hv : ReadsBack v := h (key, v) (by simp)
    have hline := newLine_length level
    have hcolon : ": ".toList = [':', ' '] := rfl
    cases ms with
    | nil =>
      simp only [prettyMembers, String.toList_append, List.length_append] at hfuel
      obtain ⟨fuel, rfl⟩ : ∃ f, fuel = f + 1 := ⟨fuel - 1, by omega⟩
      rw [← readMembers_skipBlanks]
      simp only [prettyMembers, String.toList_append, List.append_assoc, skipBlanks_newLine, hcolon]
      rw [readMembers_skipBlanks]
      refine readMembers_last (hv.blank level (ends_newLine closing _) (by omega)) ?_
      rw [skipBlanks_newLine]
      rfl
    | cons w ws =>
      simp only [prettyMembers, String.toList_append, List.length_append] at hfuel
      obtain ⟨fuel, rfl⟩ : ∃ f, fuel = f + 1 := ⟨fuel - 1, by omega⟩
      rw [← readMembers_skipBlanks]
      simp only [prettyMembers, String.toList_append, List.append_assoc, skipBlanks_newLine, hcolon]
      rw [readMembers_skipBlanks]
      refine readMembers_next (hv.blank level (ends_cons (Or.inl rfl) _) (by omega)) rfl ?_
      exact ih (by simp) (fun u hu => h u (by simp [hu])) fuel (by omega)

/-- Keys that denote something make an object. -/
theorem ofMembers_map (members : List (String × Json)) :
    ofMembers (members.map fun m => (some m.1, m.2)) = object members := by
  unfold ofMembers
  rw [show List.mapM _ _ = some members from ?keys]
  case keys =>
    induction members with
    | nil => rfl
    | cons m ms ih => simp [List.mapM_cons, ih]

/-- A written value is not empty, so there is fuel for a first step. -/
theorem readsBack_of_step {v : Json} (hv : Plain v)
    (h : ∀ level rest fuel, Ends rest → 2 * (v.prettyAt level).toList.length ≤ fuel + 1 →
      readValue (fuel + 1) ((v.prettyAt level).toList ++ rest) = some (v, rest)) :
    ReadsBack v := by
  intro level rest fuel hrest hfuel
  have hpos := (starts_prettyAt hv level).length_pos
  obtain ⟨fuel, rfl⟩ : ∃ f, fuel = f + 1 := ⟨fuel - 1, by omega⟩
  exact h level rest fuel hrest hfuel

/-- **The text of a plain value is read back,** whatever follows. -/
theorem readsBack {v : Json} (h : Plain v) : ReadsBack v := by
  induction h with
  | null =>
    refine readsBack_of_step .null fun level rest fuel _ _ => ?_
    rw [prettyAt]
    rfl
  | bool b =>
    refine readsBack_of_step (.bool b) fun level rest fuel _ _ => ?_
    rw [prettyAt]
    cases b <;> rfl
  | string s =>
    refine readsBack_of_step (.string s) fun level rest fuel _ _ => ?_
    rw [prettyAt]
    exact readValue_string fuel s rest
  | ofNat h =>
    refine readsBack_of_step (.ofNat h) fun level rest fuel hrest _ => ?_
    rw [ofNat, prettyAt]
    exact readValue_ofNat fuel h hrest
  | @array items hitems ih =>
    refine readsBack_of_step (.array hitems) fun level rest fuel _ hfuel => ?_
    cases items with
    | nil =>
      rw [prettyAt]
      rfl
    | cons v vs =>
      have hline := newLine_length level
      simp only [prettyAt, String.toList_append, List.length_append] at hfuel
      simp only [prettyAt, String.toList_append, List.append_assoc]
      have hread := readItems_prettyItems (by simp) ih (level + 1) level fuel rest (by omega)
      have hopen := readValue_items fuel
        (starts_prettyItems (hitems v (by simp)) vs (level + 1)
          ((newLine level).toList ++ ']' :: rest))
      rw [hread] at hopen
      exact hopen
  | @object members hmembers ih =>
    refine readsBack_of_step (.object hmembers) fun level rest fuel _ hfuel => ?_
    cases members with
    | nil =>
      rw [prettyAt]
      rfl
    | cons m ms =>
      have hline := newLine_length level
      simp only [prettyAt, String.toList_append, List.length_append] at hfuel
      simp only [prettyAt, String.toList_append, List.append_assoc]
      have hread := readMembers_prettyMembers (by simp) ih (level + 1) level fuel rest (by omega)
      have hopen := readValue_members fuel
        (head?_prettyMembers m ms (level + 1) ((newLine level).toList ++ '\x7d' :: rest))
      rw [hread] at hopen
      simp only [Option.bind_eq_bind, Option.bind_some, ofMembers_map] at hopen
      exact hopen

/-- **A plain value is read back from its text.** -/
theorem parse_pretty {v : Json} (h : Plain v) : parse v.pretty = some v := by
  have hread : readValue (2 * v.pretty.toList.length + 2) v.pretty.toList = some (v, []) := by
    have := readsBack h 0 [] (2 * v.pretty.toList.length + 2) (by simp [Ends])
      (Nat.le_add_right _ 2)
    rwa [List.append_nil] at this
  unfold parse
  simp only [hread]
  rfl

end DomainModel.Json
