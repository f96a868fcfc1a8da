import DomainModel.Handle
import DomainModel.Json.Basic
import DomainModel.Vocabulary

/-! # Reading records

A record is an object with named fields. A field is present, absent, or given twice, which is an
error; members that are no field are skipped. Most records may also be given as an array of their
fields in order, where those at the end may be missing if they have a default. A reader
`Nat → Json → Option α` takes the number of arrays and objects that may still be nested; each array
and object takes one.

A member that is skipped may hold anything: it is not even read. The exception is a *tagged* record,
whose fields depend on the value of its tag. The tag may come last, so all members are read before
any of them is known to be a field, and each has to fit. A tag that was read in this way itself, as
a part of another tagged record, may be the number of a variant instead of its name. -/

namespace DomainModel.Json

variable {α : Type}

/-! ## Scalars -/

def toString? : Json → Option String
  | string s => some s
  | _ => none

def toBool? : Json → Option Bool
  | bool b => some b
  | _ => none

/-- A natural number without sign, fraction and exponent. -/
def toNat? : Json → Option Nat
  | number lexeme => natOfLexeme? lexeme
  | _ => none

/-- A position in a list, which fits a 64-bit word. -/
def toIndex? (v : Json) : Option Nat := do
  let n ← v.toNat?
  if n < UInt64.size then some n else none

/-- A handle. -/
def toHandle? {arena : Arena} (v : Json) : Option (Handle arena) := v.toNat?.bind Handle.ofIndex?

/-- The handle as JSON. -/
def ofHandle {arena : Arena} (h : Handle arena) : Json := ofNat h.index

/-- The value of an optional, null for none. -/
def ofOption (encode : α → Json) : Option α → Json
  | none => null
  | some a => encode a

def ofList (encode : α → Json) (as : List α) : Json := array (as.map encode)

def ofWord [Vocabulary α] (a : α) : Json := string (Vocabulary.word a)

/-- The value of a tag: a name, or a number that stands for one of the given names. -/
def toTag? (numbered : List String) : Json → Option String
  | string name => some name
  | v => v.toNat?.bind (numbered[·]?)

/-! ## Wrapped values -/

/-- An optional value; null stands for none. -/
def nullable (read : Json → Option α) : Json → Option (Option α)
  | null => some none
  | v => (read v).map some

/-- An array of values. -/
def list (read : Nat → Json → Option α) : Nat → Json → Option (List α)
  | room + 1, array items => items.mapM (read room)
  | _, _ => none

/-- An array of strings. -/
def strings (room : Nat) (v : Json) : Option (List String) := list (fun _ => toString?) room v

/-- An array of handles. -/
def handles {arena : Arena} (room : Nat) (v : Json) : Option (List (Handle arena)) :=
  list (fun _ => toHandle?) room v

/-! ## Choices -/

/-- A choice as it is written: a bare name, or an object whose only member has the name for key and
holds what the choice carries. -/
def choice : Nat → Json → Option (String × Option Json)
  | _, string name => some (name, none)
  | _ + 1, object [(name, v)] => some (name, some v)
  | _, _ => none

/-- What a choice that carries nothing may hold: nothing at all, or null. Inside a tagged record an
object without members counts as well. -/
def carriesNothing (inTagged : Bool) : Option Json → Bool
  | none | some null => true
  | some (object []) => inTagged
  | some _ => false

/-- A value of a closed vocabulary. -/
def word [Vocabulary α] (inTagged : Bool) (room : Nat) (v : Json) : Option α := do
  let (name, held) ← choice room v
  if carriesNothing inTagged held then Vocabulary.ofWord? name else none

/-! ## Fields -/

/-- The members of an object, in order. -/
structure Members where
  entries : List (String × Json)

/-- What an object holds under a key. -/
inductive Field where
  | absent
  | once (v : Json)
  | repeated

namespace Members

variable (ms : Members)

/-- What the object holds under a key. -/
def field (key : String) : Field :=
  match ms.entries.filter (·.1 == key) with
  | [] => .absent
  | [(_, v)] => .once v
  | _ => .repeated

/-- A field that has to be present. -/
def required (key : String) (read : Json → Option α) : Option α :=
  match ms.field key with
  | .once v => read v
  | .absent | .repeated => none

/-- A field that has a default. -/
def withDefault (key : String) (default : α) (read : Json → Option α) : Option α :=
  match ms.field key with
  | .absent => some default
  | .once v => read v
  | .repeated => none

/-- A field that may be absent or null. -/
def optional (key : String) (read : Json → Option α) : Option (Option α) :=
  ms.withDefault key none (nullable read)

/-- The tag of a record, one of the names if it is a number. -/
def tag (numbered : List String) (key : String) : Option String :=
  ms.required key (toTag? numbered)

/-- All members but those of the given keys can be read. -/
def othersFit (keys : List String) (room : Nat) : Bool :=
  (ms.entries.filter (!keys.contains ·.1)).all (·.2.fits room)

end Members

/-! ## Records -/

/-- The fields of a record in order. An array of them has to reach the end of those that are
needed. -/
structure Layout where
  needed : List String := []
  more : List String := []

namespace Layout

def fields (layout : Layout) : List String := layout.needed ++ layout.more

/-- The members that the items of an array stand for, unless there are too few or too many. -/
def members? (layout : Layout) (items : List Json) : Option Members :=
  if layout.needed.length ≤ items.length ∧ items.length ≤ layout.fields.length then
    some ⟨layout.fields.zip items⟩
  else none

end Layout

/-- A record, read from its members and the room that is left for their values. The items of an
array decide which layout they follow, if any. -/
def recordBy (layout? : List Json → Option Layout) (read : Nat → Members → Option α) :
    Nat → Json → Option α
  | room + 1, object entries => read room ⟨entries⟩
  | room + 1, array items => do read room (← (← layout? items).members? items)
  | _, _ => none

/-- A record of one layout. -/
def record (layout : Layout) (read : Nat → Members → Option α) : Nat → Json → Option α :=
  recordBy (fun _ => some layout) read

/-- A record that is no array. -/
def keyed (read : Nat → Members → Option α) : Nat → Json → Option α :=
  recordBy (fun _ => none) read

/-- The layout of a tagged record that is given as an array, its tag first. -/
def taggedLayout? (numbered : List String) (layout? : String → Option Layout)
    (items : List Json) : Option Layout := do
  layout? (← toTag? numbered (← items.head?))

/-- A tagged record: all of its members have to fit. The tag, which may be a number that stands for
one of the given names, decides the layout. -/
def tagged (numbered : List String) (layout? : String → Option Layout)
    (read : Nat → Members → Option α) : Nat → Json → Option α :=
  recordBy (taggedLayout? numbered layout?) fun room ms =>
    if ms.othersFit [] room then read room ms else none

end DomainModel.Json
