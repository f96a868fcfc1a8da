/-! # Closed vocabularies

Many fields of a model hold one of a few fixed words, such as the type of a bounded context or the
operator of a comparison. A `Vocabulary` lists the values with their words; `ofWord?` reads a word
and accepts nothing but the exact spelling. `ofWord?_word`: a value is read back from its word. -/

namespace DomainModel

/-- A type of finitely many values, each with a word of its own. -/
class Vocabulary (α : Type) where
  /-- All values, in declaration order. -/
  values : List α
  /-- The word that stands for a value. -/
  word : α → String
  /-- Every value is found by its word, so no two values share one. -/
  find_word : ∀ a, values.find? (word · == word a) = some a

namespace Vocabulary

variable {α : Type} [Vocabulary α]

/-- The value that a word stands for. -/
def ofWord? (s : String) : Option α := values.find? (word · == s)

theorem ofWord?_word (a : α) : ofWord? (word a) = some a := find_word a

end Vocabulary

end DomainModel
