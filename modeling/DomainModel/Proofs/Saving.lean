import DomainModel.Proofs.CanonicalNumbering
import DomainModel.Proofs.Format.Levels
import DomainModel.Proofs.Loading

/-! # What saving costs

A model that was loaded is written with every field, so its text may nest one level deeper than the
one it came from, and one beyond the limit at most. Up to the limit it is loaded again, past the
limit it is refused: a text that uses up the limit in a path whose chains are left out describes a
model that cannot be loaded once it has been saved. -/

namespace DomainModel

open Json (ofList)

/-! ### Numbers have no levels -/

theorem Json.depth_ofList_map {α : Type} {write : α → Json} {g : α → α}
    (h : ∀ a, (write (g a)).depth = (write a).depth) (as : List α) :
    (ofList write (as.map g)).depth = (ofList write as).depth := by
  unfold ofList
  induction as with
  | nil => rfl
  | cons a as ih =>
    simp only [List.map_cons, Json.depth, Json.depthItems, h] at ih ⊢
    omega

theorem Json.depthMembers_append (members members' : List (String × Json)) :
    depthMembers (members ++ members') = max (depthMembers members) (depthMembers members') := by
  induction members with
  | nil => exact (Nat.zero_max _).symm
  | cons m members ih => rw [List.cons_append, depthMembers, depthMembers, ih, Nat.max_assoc]

variable (f : ExprId → ExprId)

mutual

theorem Expr.depth_renumbered : ∀ e : Expr, (e.renumbered f).toJson.depth = e.toJson.depth
  | ⟨id, form⟩ => by
    have hform := Form.depth_renumbered form
    simp only [Expr.renumbered, Expr.toJson, Json.depth, Json.depthMembers, hform]
    rfl

theorem Form.depth_renumbered : ∀ form : Form,
    Json.depthMembers (form.renumbered f).members = Json.depthMembers form.members
  | .binary _ left right => by
    simp only [Form.renumbered, Form.members, Json.depthMembers, Expr.depth_renumbered left,
      Expr.depth_renumbered right]
  | .lone _ operand | .negation operand | .signed _ operand | .parenthesized operand => by
    simp only [Form.renumbered, Form.members, Json.depthMembers, Expr.depth_renumbered operand]
  | .ternary condition thenValue elseValue => by
    simp only [Form.renumbered, Form.members, Json.depthMembers, Expr.depth_renumbered condition,
      Expr.depth_renumbered thenValue, Expr.depth_renumbered elseValue]
  | .path _ _ methods => by
    simp only [Form.renumbered, Form.members, Json.depthMembers, Json.depth,
      Expr.depthItems_renumbered methods]
  | .final _ | .number _ | .string _ | .bool _ | .null | .now => by rw [Form.renumbered]

theorem Expr.depthItems_renumbered : ∀ methods : List Method,
    Json.depthItems (Expr.methodsToJson (Expr.renumberedMethods f methods)) =
      Json.depthItems (Expr.methodsToJson methods)
  | [] => by rw [Expr.renumberedMethods]
  | .simple _ :: methods => by
    simp only [Expr.renumberedMethods, Expr.methodsToJson, Json.depthItems,
      Expr.depthItems_renumbered methods]
  | .parametric _ _ body :: methods => by
    simp only [Expr.renumberedMethods, Expr.methodsToJson, Json.depthItems, Json.depth,
      Json.depthMembers, Expr.depth_renumbered body, Expr.depthItems_renumbered methods]

end

theorem Invariant.depth_renumbered (i : Invariant) :
    (i.renumbered f).toJson.depth = i.toJson.depth := by
  simp only [renumbered, toJson, Json.depth, Json.depthMembers, Expr.depth_renumbered]

theorem Aggregate.depth_renumbered (a : Aggregate) :
    (a.renumbered f).toJson.depth = a.toJson.depth := by
  simp only [renumbered, toJson, Json.depth, Json.depthMembers,
    Json.depth_ofList_map (Invariant.depth_renumbered f)]

theorem AntiCorruption.depth_renumbered (a : AntiCorruption) :
    (a.renumbered f).toJson.depth = a.toJson.depth := by
  simp only [renumbered, toJson, Json.depth, Json.depthMembers,
    Json.depth_ofList_map (Invariant.depth_renumbered f)]

theorem ConstructorAssignment.depth_renumbered (a : ConstructorAssignment) :
    (a.renumbered f).toJson.depth = a.toJson.depth := by
  simp only [renumbered, toJson, Json.depth, Json.depthMembers, Expr.depth_renumbered]

theorem Constructor.depth_renumbered (c : Constructor) :
    (c.renumbered f).toJson.depth = c.toJson.depth := by
  simp only [renumbered, toJson, Json.depth, Json.depthMembers,
    Json.depth_ofList_map (ConstructorAssignment.depth_renumbered f)]

theorem Command.depth_renumbered (c : Command) :
    (c.renumbered f).toJson.depth = c.toJson.depth := by
  cases c with
  | assignment left right =>
    simp only [renumbered, toJson, Json.depth, Json.depthMembers, Expr.depth_renumbered]
  | other text => rfl

theorem Operation.depth_renumbered (o : Operation) :
    (o.renumbered f).toJson.depth = o.toJson.depth := by
  simp only [renumbered, toJson, Json.depth, Json.depthMembers,
    Json.depth_ofList_map (Command.depth_renumbered f)]

theorem DomainObject.depth_renumbered (o : DomainObject) :
    (o.renumbered f).toJson.depth = o.toJson.depth := by
  have hconstructor : (Json.ofOption Constructor.toJson (o.renumbered f).constructor).depth =
      (Json.ofOption Constructor.toJson o.constructor).depth := by
    unfold renumbered
    cases o.constructor with
    | none => rfl
    | some c => exact c.depth_renumbered f
  have hoperations : (ofList Operation.toJson (o.renumbered f).operations).depth =
      (ofList Operation.toJson o.operations).depth :=
    Json.depth_ofList_map (Operation.depth_renumbered f) o.operations
  simp only [toJson, Json.depth, Json.depthMembers_append, Json.depthMembers, hconstructor,
    hoperations]
  rfl

namespace Model

variable {m : Model}

theorem depth_renumbered (m : Model) : (m.renumbered f).toJson.depth = m.toJson.depth := by
  simp only [renumbered, toJson, Json.depth, Json.depthMembers,
    Json.depth_ofList_map (Aggregate.depth_renumbered f),
    Json.depth_ofList_map (AntiCorruption.depth_renumbered f),
    Json.depth_ofList_map (DomainObject.depth_renumbered f)]

/-- A numbered model nests as deep as before. -/
theorem depth_numbered (m : Model) : m.numbered.toJson.depth = m.toJson.depth := by
  rw [← depth_renumbered (fun _ => ⟨0⟩) m.numbered, ← depth_renumbered (fun _ => ⟨0⟩) m]
  exact congrArg (·.toJson.depth) m.bare_numbered

/-! ### Saved texts -/

/-- The text of a loaded model is loaded again where it does not nest too deep. -/
theorem ofText_text_of_depth_le {text : String} (h : ofText text = .ok m)
    (hdepth : m.toJson.depth ≤ nestingLimit) : ofText m.text = .ok m := by
  rw [ofText_eq_ok]
  exact ⟨m, describes_text hdepth, linked_iff_inRange.mpr (inRange_of_ofText h),
    numbered_of_ofText h⟩

/-- A text that nests too deep is refused, whatever model it is the text of. -/
theorem ofText_text_of_lt_depth (hdepth : nestingLimit < m.toJson.depth) :
    ofText m.text = .error .malformed := by
  have hread : ofJson? nestingLimit m.toJson = none := by
    cases hread : ofJson? nestingLimit m.toJson with
    | none => rfl
    | some n =>
      have hroom := (tight nestingLimit).depth_le hread
      omega
  unfold ofText text ofJson
  rw [Json.parse_pretty (codec.plain m)]
  simp only [hread]

/-- A model is written with one level more than its text at most, and one beyond the limit. -/
theorem depth_le_of_ofText {text : String} (h : ofText text = .ok m) :
    ∃ v, Json.parse text = some v ∧ m.toJson.depth ≤ min nestingLimit v.depth + 1 := by
  obtain ⟨n, ⟨v, hparse, hread⟩, -, rfl⟩ := ofText_eq_ok.mp h
  rw [depth_numbered]
  exact ⟨v, hparse, (tight nestingLimit).depth_write hread⟩

end Model

/-! ### A path that uses up the limit -/

/-- The root within `n` pairs of parentheses. -/
def Expr.enclosedRoot : Nat → Expr
  | 0 => .unnumbered (.path .root [] [])
  | n + 1 => .unnumbered (.parenthesized (enclosedRoot n))

/-- How a text may put it, without numbers and without the chains of the path. -/
def Expr.enclosedRootJson : Nat → Json
  | 0 => .object [("expr", .string "path"), ("head", .string "root")]
  | n + 1 => .object [("expr", .string "parenthesized"), ("inner", enclosedRootJson n)]

theorem Expr.plain_enclosedRootJson (n : Nat) : Json.Plain (enclosedRootJson n) := by
  induction n with
  | zero => exact .object (by simp [Json.Plain.string])
  | succ n ih => exact .object (by simp [Json.Plain.string, ih])

theorem Expr.depth_enclosedRootJson (n : Nat) : (enclosedRootJson n).depth = n + 1 := by
  induction n with
  | zero => rfl
  | succ n ih => simp [enclosedRootJson, Json.depth, Json.depthMembers, ih]

theorem Expr.depth_enclosedRoot (n : Nat) : (enclosedRoot n).toJson.depth = n + 2 := by
  induction n with
  | zero => rfl
  | succ n ih =>
    simp only [enclosedRoot, unnumbered, toJson, Form.members, Json.depth, Json.depthMembers, ih]
    rfl

theorem Expr.ofJson?_enclosedRootJson {n room : Nat} (h : n < room) :
    Expr.ofJson? room (enclosedRootJson n) = some (enclosedRoot n) := by
  induction n generalizing room with
  | zero =>
    obtain ⟨room, rfl⟩ := Nat.exists_eq_succ_of_ne_zero (Nat.ne_of_gt h)
    rfl
  | succ n ih =>
    obtain ⟨room, rfl⟩ := Nat.exists_eq_succ_of_ne_zero (Nat.ne_of_gt (Nat.zero_lt_of_lt h))
    have hroom : n < room := Nat.lt_of_succ_lt_succ h
    have hfits : (enclosedRootJson n).fits room = true :=
      (plain_enclosedRootJson n).fits (by rw [depth_enclosedRootJson]; exact hroom)
    rw [enclosedRootJson, Expr.ofJson?]
    simp [Json.Members.othersFit, Json.fits, hfits, Form.ofMembers?, Json.Members.tag,
      Json.Members.required, Json.Members.withDefault, Json.Members.field, Json.toTag?,
      ih hroom]
    rfl

namespace Model

/-- An aggregate whose invariant is the root within `n` pairs of parentheses. -/
def enclosed (n : Nat) : Model :=
  { Model.empty with aggregates := [⟨"Orders", none, [], [⟨"open", .enclosedRoot n⟩]⟩] }

/-- The same as a text may put it. -/
def enclosedJson (n : Nat) : Json :=
  .object [("aggregates", .array [.object [("name", .string "Orders"),
    ("invariants", .array [.object [("name", .string "open"),
      ("expression", Expr.enclosedRootJson n)]])]])]

theorem depth_enclosed (n : Nat) : (enclosed n).toJson.depth = n + 7 := by
  simp only [enclosed, empty, toJson, Aggregate.toJson, Invariant.toJson, Json.depth,
    Json.depthMembers, Json.depthItems, ofList, List.map_cons, List.map_nil, Json.ofOption,
    Expr.depth_enclosedRoot]
  omega

theorem plain_enclosedJson (n : Nat) : Json.Plain (enclosedJson n) := by
  refine .object (List.forall_mem_singleton.mpr (.array (List.forall_mem_singleton.mpr ?_)))
  refine .object (List.forall_mem_cons.mpr ⟨.string _, List.forall_mem_singleton.mpr ?_⟩)
  refine .array (List.forall_mem_singleton.mpr (.object ?_))
  exact List.forall_mem_cons.mpr
    ⟨.string _, List.forall_mem_singleton.mpr (Expr.plain_enclosedRootJson n)⟩

theorem describes_enclosedJson {n : Nat} (h : n + 5 < nestingLimit) :
    Describes (enclosedJson n).pretty (enclosed n) := by
  have hexpr : Expr.ofJson? (nestingLimit - 5) (Expr.enclosedRootJson n) =
      some (.enclosedRoot n) := Expr.ofJson?_enclosedRootJson (by omega)
  refine ⟨enclosedJson n, Json.parse_pretty (plain_enclosedJson n), ?_⟩
  unfold nestingLimit at hexpr ⊢
  simp [enclosedJson, enclosed, empty, ofJson?, Aggregate.ofJson?, Invariant.ofJson?, Json.record,
    Json.recordBy, Json.list, Json.Members.required, Json.Members.optional, Json.Members.withDefault,
    Json.Members.field, Json.toString?, hexpr]

theorem ofText_enclosedJson {n : Nat} (h : n + 5 < nestingLimit) :
    ofText (enclosedJson n).pretty = .ok (enclosed n).numbered := by
  have hlinks : (enclosed n).links = [] := rfl
  have hlinked : (enclosed n).Linked := by
    unfold Linked
    rw [hlinks]
    exact List.forall_mem_nil _
  exact ofText_eq_ok.mpr ⟨enclosed n, describes_enclosedJson h, hlinked, rfl⟩

/-! ### What saving costs -/

/-- **What saving costs.** A model that was loaded from a text is written with one level more than
the text at most, and one beyond the limit at most. If the limit is kept, in particular if the text
itself nested less deep than it may, the saved text gives the model back. One level beyond the limit
the saved text is refused. -/
theorem reloads_iff_depth_le {text : String} (h : ofText text = .ok m) :
    (∃ v, Json.parse text = some v ∧ m.toJson.depth ≤ min nestingLimit v.depth + 1 ∧
      (v.depth < nestingLimit → ofText m.text = .ok m)) ∧
    (ofText m.text = .ok m ↔ m.toJson.depth ≤ nestingLimit) ∧
    (ofText m.text = .error .malformed ↔ m.toJson.depth = nestingLimit + 1) := by
  obtain ⟨v, hparse, hdepth⟩ := depth_le_of_ofText h
  refine ⟨⟨v, hparse, hdepth, fun hv => ?_⟩, ?_, ?_⟩
  · exact ofText_text_of_depth_le h (by omega)
  · constructor
    · intro hreload
      by_contra hlt
      rw [ofText_text_of_lt_depth (by omega)] at hreload
      cases hreload
    · exact ofText_text_of_depth_le h
  · constructor
    · intro hrefused
      by_contra hne
      rw [ofText_text_of_depth_le h (by omega)] at hrefused
      cases hrefused
    · intro hlast
      exact ofText_text_of_lt_depth (by omega)

theorem reloads_iff_depth_le_enclosed :
    ofText (enclosedJson 120).pretty = .ok (enclosed 120).numbered ∧
      (enclosed 120).numbered.toJson.depth = nestingLimit ∧
      ofText (enclosed 120).numbered.text = .ok (enclosed 120).numbered := by
  have hload := ofText_enclosedJson (by decide : 120 + 5 < nestingLimit)
  have hdepth : (enclosed 120).numbered.toJson.depth = nestingLimit := by
    rw [depth_numbered, depth_enclosed]
    rfl
  obtain ⟨-, hreloads, -⟩ := reloads_iff_depth_le hload
  exact ⟨hload, hdepth, hreloads.mpr (Nat.le_of_eq hdepth)⟩

/-- **Saving may make a model unloadable.** The limit is used up by a path that stands within 121
pairs of parentheses, and its chains, which the text leaves out, are written one level deeper. -/
theorem saved_text_refused : ofText (enclosedJson 121).pretty = .ok (enclosed 121).numbered ∧
    ofText (enclosed 121).numbered.text = .error .malformed := by
  constructor
  · exact ofText_enclosedJson (by decide)
  · refine ofText_text_of_lt_depth ?_
    rw [depth_numbered, depth_enclosed]
    decide

end Model

end DomainModel
