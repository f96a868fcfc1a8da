/-! # Handles

A model keeps its nodes in arenas, one per kind of node, and nodes refer to each other by position.
A `Handle a` is a position in the arena `a`, so handles of different arenas cannot be mixed up. It
is a 32-bit word: every handle can be written as a JSON number and read back.

* `Handle.ofIndex`: the handle of a position; a position past the last word wraps around.
* `AnyHandle`: a handle together with its arena, for statements about handles of all kinds.
-/

namespace DomainModel

/-- The kinds of node with an arena of their own. Expressions are owned trees without an arena, but
their numbers address them in the same way. -/
inductive Arena where
  | context
  | module
  | aggregate
  | object
  | attribute
  | reference
  | antiCorruption
  | contextMap
  | relationship
  | expr
deriving DecidableEq

/-- The word that names a handle of the arena in messages. -/
def Arena.handleName : Arena → String
  | .context => "ContextId"
  | .module => "ModuleId"
  | .aggregate => "AggregateId"
  | .object => "ObjectId"
  | .attribute => "AttributeId"
  | .reference => "ReferenceId"
  | .antiCorruption => "AntiCorruptionId"
  | .contextMap => "ContextMapId"
  | .relationship => "RelationshipId"
  | .expr => "ExprId"

/-- A position in an arena. -/
structure Handle (arena : Arena) where
  val : UInt32
deriving DecidableEq, Inhabited

abbrev ContextId := Handle .context
abbrev ModuleId := Handle .module
abbrev AggregateId := Handle .aggregate
abbrev ObjectId := Handle .object
abbrev AttributeId := Handle .attribute
abbrev ReferenceId := Handle .reference
abbrev AntiCorruptionId := Handle .antiCorruption
abbrev ContextMapId := Handle .contextMap
abbrev RelationshipId := Handle .relationship
abbrev ExprId := Handle .expr

/-- A handle of any arena. -/
structure AnyHandle where
  arena : Arena
  val : UInt32
deriving DecidableEq

namespace Handle

variable {arena : Arena}

/-- The position in the arena, from 0. -/
def index (h : Handle arena) : Nat := h.val.toNat

/-- The handle of a position. -/
def ofIndex (i : Nat) : Handle arena := ⟨UInt32.ofNat i⟩

/-- The handle of a position that a word can hold. -/
def ofIndex? (i : Nat) : Option (Handle arena) :=
  if i < UInt32.size then some (ofIndex i) else none

/-- The handle, its arena kept as data. -/
def any (h : Handle arena) : AnyHandle := ⟨arena, h.val⟩

/-- The handles of the first `n` positions. -/
def firsts (n : Nat) : List (Handle arena) := (List.range n).map ofIndex

@[simp] theorem ofIndex_index (h : Handle arena) : ofIndex h.index = h := by
  simp [ofIndex, index]

theorem index_lt (h : Handle arena) : h.index < UInt32.size := h.val.toNat_lt

@[simp] theorem ofIndex?_index (h : Handle arena) : ofIndex? h.index = some h := by
  simp [ofIndex?, h.index_lt]

theorem index_ofIndex {i : Nat} (h : i < UInt32.size) : (ofIndex i : Handle arena).index = i :=
  UInt32.toNat_ofNat_of_lt' h

theorem index_inj {h k : Handle arena} : h.index = k.index ↔ h = k :=
  ⟨fun e => by rw [← ofIndex_index h, e, ofIndex_index], fun e => e ▸ rfl⟩

end Handle

namespace AnyHandle

/-- The position in the arena, from 0. -/
def index (h : AnyHandle) : Nat := h.val.toNat

/-- A handle as messages show it. -/
def text (h : AnyHandle) : String := s!"{h.arena.handleName}#{h.index}"

end AnyHandle

/-- A handle as messages show it. -/
def Handle.text {arena : Arena} (h : Handle arena) : String := h.any.text

end DomainModel
