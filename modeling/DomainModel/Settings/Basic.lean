import DomainModel.Vocabulary

/-! # Settings of an analysis

A project chooses how ternaries are checked, may ask for a parallel run, and may skip groups of
checks. A parallel run is only faster: it reports the same diagnostics in the same order. -/

namespace DomainModel

/-- The rule for the branches of a ternary. -/
inductive TernaryPolicy where
  /-- Both branches are boolean, and so is the result. -/
  | boolean
  /-- The branches go together; the result has the type of the first one that is not `null`. -/
  | matching
deriving DecidableEq

instance : Vocabulary TernaryPolicy where
  values := [.boolean, .matching]
  word
    | .boolean => "boolean"
    | .matching => "matching"
  find_word := by intro a; cases a <;> rfl

/-- The refusal of a name that is no ternary policy. -/
structure UnknownPolicy where
  name : String
deriving DecidableEq

def UnknownPolicy.message (e : UnknownPolicy) : String :=
  s!"unknown ternary policy '{e.name}' (expected 'boolean' or 'matching')"

/-- The policy of a name. -/
def TernaryPolicy.ofName (name : String) : Except UnknownPolicy TernaryPolicy :=
  match Vocabulary.ofWord? name with
  | some policy => .ok policy
  | none => .error ⟨name⟩

/-- The groups of checks that can be skipped. -/
inductive CheckGroup where
  | aggregate
  | entity
  | antiCorruption
  | contextMap
  | constructor
  | operation
  | invariant
  | uniqueness
deriving DecidableEq

instance : Vocabulary CheckGroup where
  values := [.aggregate, .entity, .antiCorruption, .contextMap, .constructor, .operation,
    .invariant, .uniqueness]
  word
    | .aggregate => "aggregate"
    | .entity => "entity"
    | .antiCorruption => "anti_corruption"
    | .contextMap => "context_map"
    | .constructor => "constructor"
    | .operation => "operation"
    | .invariant => "invariant"
    | .uniqueness => "uniqueness"
  find_word := by intro a; cases a <;> rfl

structure Settings where
  policy : TernaryPolicy
  parallel : Bool
  /-- The skipped groups; order and repetition carry no meaning. -/
  skip : List CheckGroup
deriving DecidableEq

namespace Settings

def default : Settings := ⟨.boolean, false, []⟩

instance : Inhabited Settings := ⟨default⟩

/-- The group is not skipped. -/
def enabled (s : Settings) (group : CheckGroup) : Bool := !s.skip.contains group

/-- The skipped groups, each once, in declaration order. -/
def skipped (s : Settings) : List CheckGroup :=
  (Vocabulary.values : List CheckGroup).filter s.skip.contains

end Settings

end DomainModel
