import DomainModel.Model.Basic

/-! # Looking up nodes

A model may hold handles that point nowhere: only a model that has been loaded is known to be free
of them. A `Lookup` is a value found by following handles, together with what was missed on the way:
a handle outside its arena, a position outside a list, a name that a table lacks, a difference below
zero. Where something is missed, the look-up goes on with a default, so that its value is a plain
function of the model; a caller that cares asks whether `misses` is empty, and a value with misses
is never shown.

The order in which a look-up visits nodes matters: a search stops at its first hit, and a handle
behind the hit is not followed. -/

namespace DomainModel

/-- What a step of a look-up asks for and does not get. -/
inductive Miss where
  /-- The node of a handle outside its arena. -/
  | handle (h : AnyHandle)
  /-- The item at a position outside a list. -/
  | position (i : Nat)
  /-- The entry of a name that a table lacks. -/
  | entry (name : String)
  /-- A natural number that is smaller than what is taken from it. -/
  | difference (a b : Nat)
deriving DecidableEq

/-- A value, and what was missed while it was computed, in the order of the attempts. -/
structure Lookup (α : Type) where
  value : α
  misses : List Miss

namespace Lookup

variable {α β : Type}

instance : Monad Lookup where
  pure a := ⟨a, []⟩
  bind x f :=
    let y := f x.value
    ⟨y.value, x.misses ++ y.misses⟩

@[simp] theorem value_pure (a : α) : (pure a : Lookup α).value = a := rfl

@[simp] theorem misses_pure (a : α) : (pure a : Lookup α).misses = [] := rfl

@[simp] theorem value_bind (x : Lookup α) (f : α → Lookup β) :
    (x >>= f).value = (f x.value).value := rfl

@[simp] theorem misses_bind (x : Lookup α) (f : α → Lookup β) :
    (x >>= f).misses = x.misses ++ (f x.value).misses := rfl

@[ext] theorem ext {x y : Lookup α} (hv : x.value = y.value) (hm : x.misses = y.misses) :
    x = y := by
  cases x; cases y; simp_all

instance : LawfulMonad Lookup := LawfulMonad.mk' Lookup
  (fun _ => by ext1 <;> simp [Functor.map])
  (fun _ _ => by ext1 <;> simp)
  (fun _ _ _ => by ext1 <;> simp)

@[simp] theorem value_functor (f : α → β) (x : Lookup α) : (f <$> x).value = f x.value := rfl

@[simp] theorem misses_functor (f : α → β) (x : Lookup α) : (f <$> x).misses = x.misses := by
  simp [Functor.map]

/-- The node at a position of an arena. -/
def node [Inhabited α] {arena : Arena} (nodes : List α) (h : Handle arena) : Lookup α :=
  match nodes[h.index]? with
  | some a => ⟨a, []⟩
  | none => ⟨default, [.handle h.any]⟩

/-- The item at a position of a list. -/
def item [Inhabited α] (as : List α) (i : Nat) : Lookup α :=
  match as[i]? with
  | some a => ⟨a, []⟩
  | none => ⟨default, [.position i]⟩

/-- The entry of a name in a table; of equal names the first counts. -/
def entry [Inhabited α] (table : List (String × α)) (name : String) : Lookup α :=
  match table.find? (·.1 == name) with
  | some (_, a) => ⟨a, []⟩
  | none => ⟨default, [.entry name]⟩

/-- What is left of `a` when `b` is taken from it. -/
def difference (a b : Nat) : Lookup Nat :=
  if b ≤ a then ⟨a - b, []⟩ else ⟨0, [.difference a b]⟩

/-- The first item with the property; items behind it are not visited. -/
def find? (p : α → Lookup Bool) : List α → Lookup (Option α)
  | [] => pure none
  | a :: as => do if ← p a then pure (some a) else find? p as

/-- The items with the property; all items are visited. -/
def filter (p : α → Lookup Bool) : List α → Lookup (List α)
  | [] => pure []
  | a :: as => do
    let keep ← p a
    let rest ← filter p as
    pure (if keep then a :: rest else rest)

/-- Some item has the property; items behind the first such item are not visited. -/
def any (p : α → Lookup Bool) : List α → Lookup Bool
  | [] => pure false
  | a :: as => do if ← p a then pure true else any p as

/-- The results for all items. -/
def map (f : α → Lookup β) : List α → Lookup (List β)
  | [] => pure []
  | a :: as => do
    let b ← f a
    let bs ← map f as
    pure (b :: bs)

/-- The results for all items in one list. -/
def flatMap (f : α → Lookup (List β)) : List α → Lookup (List β)
  | [] => pure []
  | a :: as => do
    let bs ← f a
    let rest ← flatMap f as
    pure (bs ++ rest)

/-! ### The searches on values -/

@[simp] theorem value_find? (p : α → Lookup Bool) (as : List α) :
    (find? p as).value = as.find? (fun a => (p a).value) := by
  induction as with
  | nil => rfl
  | cons a as ih => cases h : (p a).value <;> simp [find?, h, ih]

@[simp] theorem value_filter (p : α → Lookup Bool) (as : List α) :
    (filter p as).value = as.filter (fun a => (p a).value) := by
  induction as with
  | nil => rfl
  | cons a as ih => cases h : (p a).value <;> simp [filter, h, ih]

@[simp] theorem value_any (p : α → Lookup Bool) (as : List α) :
    (any p as).value = as.any (fun a => (p a).value) := by
  induction as with
  | nil => rfl
  | cons a as ih => cases h : (p a).value <;> simp [any, h, ih]

@[simp] theorem value_map (f : α → Lookup β) (as : List α) :
    (map f as).value = as.map (fun a => (f a).value) := by
  induction as with
  | nil => rfl
  | cons a as ih => simp [map, ih]

@[simp] theorem value_flatMap (f : α → Lookup (List β)) (as : List α) :
    (flatMap f as).value = as.flatMap (fun a => (f a).value) := by
  induction as with
  | nil => rfl
  | cons a as ih => simp [flatMap, ih]

end Lookup

end DomainModel
