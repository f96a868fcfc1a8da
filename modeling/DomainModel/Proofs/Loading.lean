import DomainModel.Model.Builder
import DomainModel.Model.Load
import DomainModel.Proofs.Format.Model
import DomainModel.Proofs.Numbering
import DomainModel.Proofs.Totality.Links

/-! # Loading undoes saving

Loading numbers the expressions anew, and so does building. A model that came from either therefore
keeps its numbers when it is saved and loaded again, and everything else is kept by the format. -/

namespace DomainModel.Model

variable {m loaded : Model}

/-! ### Loading -/

theorem accept_eq_ok : m.accept = .ok loaded ↔ m.Linked ∧ m.numbered = loaded := by
  unfold accept
  rw [← dangling?_eq_none]
  cases m.dangling? <;> simp

/-- The text describes the model, whether or not its links are in order. -/
def Describes (text : String) (m : Model) : Prop :=
  ∃ v, Json.parse text = some v ∧ ofJson? nestingLimit v = some m

theorem ofText_eq_ok {text : String} :
    ofText text = .ok loaded ↔ ∃ m, Describes text m ∧ m.Linked ∧ m.numbered = loaded := by
  unfold ofText ofJson Describes
  cases hparse : Json.parse text with
  | none => simp
  | some v =>
    cases hread : ofJson? nestingLimit v with
    | none => simp [hread]
    | some m => simp [hread, accept_eq_ok]

/-- A text describes one model at most. -/
theorem Describes.eq {text : String} {n : Model} (hm : Describes text m) (hn : Describes text n) :
    m = n := by
  obtain ⟨v, hv, hread⟩ := hm
  obtain ⟨w, hw, hread'⟩ := hn
  rw [hv] at hw
  cases hw
  rw [hread] at hread'
  exact Option.some.inj hread'

/-- A loaded model is in range. -/
theorem inRange_of_ofText {text : String} (h : ofText text = .ok loaded) : loaded.InRange := by
  obtain ⟨m, -, hlinked, rfl⟩ := ofText_eq_ok.mp h
  exact linked_iff_inRange.mp (m.linked_numbered.mpr hlinked)

theorem numbered_of_ofText {text : String} (h : ofText text = .ok loaded) :
    loaded.numbered = loaded := by
  obtain ⟨m, -, -, rfl⟩ := ofText_eq_ok.mp h
  exact m.numbered_numbered

theorem numbered_of_build {calls : List Call} (h : Builder.build calls = .ok m) :
    m.numbered = m := by
  unfold Builder.build at h
  cases hrun : (Builder.runAll calls).run .empty with
  | error e => simp [hrun, bind, Except.bind] at h
  | ok built =>
    simp [hrun, bind, Except.bind, pure, Except.pure] at h
    rw [← h, numbered_numbered]

/-! ### Saving -/

/-- **The text of a model describes it** where it does not nest too deep. -/
theorem describes_text (h : m.toJson.depth ≤ nestingLimit) : Describes m.text m :=
  ⟨m.toJson, Json.parse_pretty (codec.plain m), codec.read_write m nestingLimit h⟩

/-- **Loading undoes saving** for the models that loading and building give: if the handles are in
range and the text does not nest too deep, the very same model comes back. -/
theorem ofText_text
    (hm : (∃ text, ofText text = .ok m) ∨ (∃ calls, Builder.build calls = .ok m) ∧ m.InRange)
    (hdepth : m.toJson.depth ≤ nestingLimit) : ofText m.text = .ok m := by
  rw [ofText_eq_ok]
  rcases hm with ⟨text, hm⟩ | ⟨⟨calls, hm⟩, hrange⟩
  · exact ⟨m, describes_text hdepth, linked_iff_inRange.mpr (inRange_of_ofText hm),
      numbered_of_ofText hm⟩
  · exact ⟨m, describes_text hdepth, linked_iff_inRange.mpr hrange, numbered_of_build hm⟩

/-- The sample with an invariant. -/
def openOrders : Model :=
  { orders with
    aggregates := [⟨"Orders", some ⟨0⟩, [⟨0⟩, ⟨1⟩],
      [⟨"still \"open\"", ⟨⟨0⟩, .negation ⟨⟨1⟩, .bool false⟩⟩⟩]⟩] }

/-- Calls that build the sample; the expression is not numbered yet. -/
def openOrdersCalls : List Call :=
  [.context "Sales" .feature, .aggregate ⟨0⟩ "Orders", .rootEntity ⟨0⟩ "Order",
    .keyAttribute ⟨0⟩ "id" "String", .entity ⟨0⟩ "Line",
    .plainAttribute ⟨1⟩ "price" "Integer", .reference ⟨0⟩ "lines" ⟨1⟩ .list,
    .invariant ⟨0⟩ "still \"open\"" (.unnumbered (.negation (.unnumbered (.bool false))))]

theorem ofText_text_openOrders :
    Builder.build openOrdersCalls = .ok openOrders ∧ openOrders.InRange ∧
      openOrders.toJson.depth ≤ nestingLimit ∧ ofText openOrders.text = .ok openOrders := by
  have built : Builder.build openOrdersCalls = .ok openOrders := rfl
  have range : openOrders.InRange := linked_iff_inRange.mp (by decide)
  have shallow : openOrders.toJson.depth ≤ nestingLimit := by decide
  exact ⟨built, range, shallow, ofText_text (.inr ⟨⟨_, built⟩, range⟩) shallow⟩

end DomainModel.Model
