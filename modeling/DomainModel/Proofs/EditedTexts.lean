import Mathlib.Logic.Relation
import DomainModel.Model.Load
import DomainModel.Proofs.Format.Readers

/-! # Loading does not notice edits

Two texts that edits lead between load as the same model, or are refused for the same reason: what
is read off the text does not change, and all that follows depends on that alone. Which edits there
are is the delicate point. Under an unknown key of a plain record even a number beyond the range of
double precision does no harm, but in an expression it has the whole text refused, as a key that
nothing denotes has anywhere. -/

namespace DomainModel.Model

variable {text text' : String} {v v' : Json}

theorem ofJson_edit (h : Edit false (.record .model) v v') : ofJson v' = ofJson v := by
  unfold ofJson
  rw [respects nestingLimit h]

theorem ofJson_edits (h : Relation.ReflTransGen (Edit false (.record .model)) v v') :
    ofJson v' = ofJson v := by
  induction h with
  | refl => rfl
  | tail _ hedit ih => exact (ofJson_edit hedit).trans ih

theorem ofText_of_parse (h : Json.parse text = some v) : ofText text = ofJson v := by
  unfold ofText
  rw [h]

/-- Edits lead from what the first text holds to what the second one holds. -/
def Edited (text text' : String) : Prop :=
  ∃ v v', Json.parse text = some v ∧ Json.parse text' = some v' ∧
    Relation.ReflTransGen (Edit false (.record .model)) v v'

/-- **Loading does not notice edits:** the outcome is the same, be it a model or an error. -/
theorem ofText_edited (h : Edited text text') : ofText text' = ofText text := by
  obtain ⟨v, v', hv, hv', hedits⟩ := h
  rw [ofText_of_parse hv, ofText_of_parse hv', ofJson_edits hedits]

/-! ### Samples -/

/-- A text with records in arrays: an aggregate, its invariant, and in the expression the number of
a form instead of its name. -/
def listedText : String :=
  "\x7b\"aggregates\":[[\"Orders\",null,[],[[\"open\"," ++
    "\x7b\"expr\":0,\"left\":\x7b\"expr\":\"null\"\x7d,\"op\":\"or\"\x7d]]]]\x7d"

/-- The members of the expression. -/
def listedExpression : List (String × Json) :=
  [("expr", .number "0"), ("left", .object [("expr", .string "null")]), ("op", .string "or")]

/-- The aggregates, with an expression of the given members. -/
def listedAggregates (expression : List (String × Json)) : Json :=
  .array [.array [.string "Orders", .null, .array [],
    .array [.array [.string "open", .object expression]]]]

theorem parse_listedText :
    Json.parse listedText = some (.object [("aggregates", listedAggregates listedExpression)]) := by
  unfold listedText Json.parse
  simp only [String.reduceAppend, String.reduceToList]
  rfl

/-- The same with one member more in the model and one in the expression, whose form comes last. -/
def notedText : String :=
  "\x7b\"weight\":1e400,\"aggregates\":[[\"Orders\",null,[],[[\"open\"," ++
    "\x7b\"left\":\x7b\"expr\":\"null\"\x7d,\"op\":\"or\",\"note\":true," ++
    "\"expr\":0\x7d]]]]\x7d"

def notedExpression : List (String × Json) :=
  [("left", .object [("expr", .string "null")]), ("op", .string "or"), ("note", .bool true),
    ("expr", .number "0")]

theorem parse_notedText : Json.parse notedText = some (.object
    [("weight", .unreadable), ("aggregates", listedAggregates notedExpression)]) := by
  unfold notedText Json.parse
  simp only [String.reduceAppend, String.reduceToList]
  rfl

theorem edited_notedText : Edited listedText notedText := by
  have hexpression : ∀ {ms ms'}, Edit false (.record .expr) (.object ms) (.object ms') →
      Edit false (.record .model) (.object [("aggregates", listedAggregates ms)])
        (.object [("aggregates", listedAggregates ms')]) := fun h =>
    @Edit.inMember _ _ [] [] "aggregates" _ _ <| @Edit.inItem _ _ [] [] _ _ <|
      @Edit.inItem _ _ [.string "Orders", .null, .array []] [] _ _ <|
        @Edit.inItem _ _ [] [] _ _ <| @Edit.inItem _ _ [.string "open"] [] _ _ h
  have hswap : Edit false (.record .expr) (.object listedExpression) (.object
      [("left", .object [("expr", .string "null")]), ("op", .string "or"),
        ("expr", .number "0")]) :=
    .permute (@List.perm_append_comm _ [_] [_, _])
  have hnote : Edit false (.record .expr) (.object
      [("left", .object [("expr", .string "null")]), ("op", .string "or"),
        ("expr", .number "0")]) (.object notedExpression) :=
    @Edit.insert _ .expr [_, _] [_] "note" _ (by decide) rfl fun _ => Json.noConfusion
  have hweight : Edit false (.record .model)
      (.object [("aggregates", listedAggregates notedExpression)])
      (.object [("weight", .unreadable), ("aggregates", listedAggregates notedExpression)]) :=
    @Edit.insert _ .model [] [_] "weight" _ (by decide) rfl fun h => absurd h (by decide)
  exact ⟨_, _, parse_listedText, parse_notedText,
    .head (hexpression hswap) (.head (hexpression hnote) (.single hweight))⟩

theorem ofText_edited_notedText :
    Edited listedText notedText ∧ ofText notedText = ofText listedText ∧
      ofText listedText = .ok { empty with aggregates :=
        [⟨"Orders", none, [], [⟨"open", ⟨⟨0⟩, .lone (.boolean .or) ⟨⟨1⟩, .null⟩⟩⟩]⟩] } := by
  refine ⟨edited_notedText, ofText_edited edited_notedText, ?_⟩
  rw [ofText_of_parse parse_listedText]
  rfl

/-- The members of an invariant with an expression of the given members. -/
def openInvariant (expression : List (String × Json)) : List (String × Json) :=
  [("name", .string "open"), ("expression", .object expression)]

/-- A model with one invariant of the given members. -/
def withInvariant (invariant : List (String × Json)) : Json :=
  .object [("aggregates", .array [.object [("name", .string "Orders"),
    ("invariants", .array [.object invariant])]])]

def openText : String :=
  "\x7b\"aggregates\":[\x7b\"name\":\"Orders\",\"invariants\":[\x7b\"name\":\"open\"," ++
    "\"expression\":\x7b\"expr\":\"null\"\x7d\x7d]\x7d]\x7d"

theorem parse_openText :
    Json.parse openText = some (withInvariant (openInvariant [("expr", .string "null")])) := by
  unfold openText Json.parse
  simp only [String.reduceAppend, String.reduceToList]
  rfl

/-- The note is a number beyond the range of double precision. -/
def tooLargeText : String :=
  "\x7b\"aggregates\":[\x7b\"name\":\"Orders\",\"invariants\":[\x7b\"name\":\"open\"," ++
    "\"expression\":\x7b\"note\":1e400,\"expr\":\"null\"\x7d\x7d]\x7d]\x7d"

theorem parse_tooLargeText : Json.parse tooLargeText = some (withInvariant (openInvariant
    [("note", .unreadable), ("expr", .string "null")])) := by
  unfold tooLargeText Json.parse
  simp only [String.reduceAppend, String.reduceToList]
  rfl

/-- One more member in the invariant, under half of a surrogate pair. -/
def strayKeyText : String :=
  "\x7b\"aggregates\":[\x7b\"name\":\"Orders\",\"invariants\":[\x7b\"\\ud800\":true," ++
    "\"name\":\"open\",\"expression\":\x7b\"expr\":\"null\"\x7d\x7d]\x7d]\x7d"

theorem parse_strayKeyText : Json.parse strayKeyText = some (.object [("aggregates",
    .array [.object [("name", .string "Orders"), ("invariants", .array [.unreadable])]])]) := by
  unfold strayKeyText Json.parse
  simp only [String.reduceAppend, String.reduceToList]
  rfl

/-- **Not every scalar may be put into an expression, and not every key into a record,** though no
field has the key: the text loads without the member and is refused with it. -/
theorem ofText_unreadable :
    (Json.parse openText = some (withInvariant (openInvariant [("expr", .string "null")])) ∧
      Json.parse tooLargeText = some (withInvariant (openInvariant
        [("note", .unreadable), ("expr", .string "null")])) ∧
      RecordKind.expr.Unknown ⟨[("expr", .string "null")]⟩ "note" ∧
      Json.unreadable.isScalar = true) ∧
    ofText openText = .ok
      { empty with aggregates := [⟨"Orders", none, [], [⟨"open", ⟨⟨0⟩, .null⟩⟩]⟩] } ∧
    ofText tooLargeText = .error .malformed ∧ ofText strayKeyText = .error .malformed := by
  refine ⟨⟨parse_openText, parse_tooLargeText, by decide, rfl⟩, ?_, ?_, ?_⟩
  · rw [ofText_of_parse parse_openText]
    rfl
  · rw [ofText_of_parse parse_tooLargeText]
    rfl
  · rw [ofText_of_parse parse_strayKeyText]
    rfl

end DomainModel.Model
