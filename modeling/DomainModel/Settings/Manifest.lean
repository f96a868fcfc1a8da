import DomainModel.Settings.Basic
import DomainModel.Toml.Reader

/-! # Manifests

A project keeps its settings in the table `analysis` of a TOML document, its *manifest*. The table
and each of its fields may be missing. The table may also be given as an array of the fields in
their order, and a word as a table whose only entry has the word for key and holds nothing. -/

namespace DomainModel

namespace Toml

/-- An array or a table without content. -/
def holdsNothing : Toml → Bool
  | array [] | table _ [] | tables [] => true
  | _ => false

/-- A value of a closed vocabulary. -/
def toWord? {α : Type} [Vocabulary α] : Toml → Option α
  | string s => Vocabulary.ofWord? s
  | table _ [(key, held)] => if holdsNothing held then Vocabulary.ofWord? key else none
  | _ => none

def toBool? : Toml → Option Bool
  | bool b => some b
  | _ => none

/-- The items of an array; an array of tables is one of them as well. -/
def toItems? : Toml → Option (List Toml)
  | array items => some items
  | tables elements => some (elements.map (table .header))
  | _ => none

end Toml

namespace Settings

/-- The settings of three fields, each of which may be missing. -/
def ofFields? (policy parallel skip : Option Toml) : Option Settings := do
  let words ← (skip.map Toml.toItems?).getD (some [])
  return {
    policy := ← (policy.map Toml.toWord?).getD (some default.policy)
    parallel := ← (parallel.map Toml.toBool?).getD (some default.parallel)
    skip := ← words.mapM Toml.toWord? }

/-- The settings that the value of `analysis` describes. A date or a time has none of the fields. -/
def ofToml? (v : Toml) : Option Settings :=
  match v with
  | .table _ entries =>
    let field := Toml.Entries.get? entries
    ofFields? (field "ternary_branches") (field "parallel") (field "skip")
  | .moment _ => ofFields? none none none
  | v => do
    let fields ← v.toItems?
    ofFields? fields[0]? fields[1]? fields[2]?

/-- **The settings of a manifest.** -/
def ofManifest? (text : String) : Option Settings := do
  let document ← Toml.parse text
  (document.get? "analysis").elim (some default) ofToml?

end Settings

end DomainModel
