/-! # TOML values and tables

A document is a table. A table can come about in four ways, and its `Origin` decides what later
lines may add to it: a table with a header of its own is closed to dotted keys, an inline table is
closed to everything, and no table gets a second header.

* `Entries.put`: add a value under a dotted key.
* `Entries.openTable`, `Entries.addElement`: give the table of a header its entries.
-/

namespace DomainModel

/-- How a table came about. -/
inductive Toml.Origin where
  /-- By a header of its own. -/
  | header
  /-- As a part of the header of another table. -/
  | implied
  /-- As a part of a dotted key. -/
  | dotted
  /-- As a value. -/
  | inline
deriving DecidableEq

inductive Toml where
  | string (value : String)
  | integer (value : Int)
  /-- A float as written. -/
  | float (lexeme : String)
  | bool (value : Bool)
  /-- A date, a time or both, as written. -/
  | moment (lexeme : String)
  | array (items : List Toml)
  | table (origin : Toml.Origin) (entries : List (String × Toml))
  /-- The tables that were opened one by one under the same header. -/
  | tables (elements : List (List (String × Toml)))

namespace Toml

/-- The entries of a table; no key occurs twice. -/
abbrev Entries := List (String × Toml)

namespace Entries

/-- The value under a key. -/
def get? (entries : Entries) (key : String) : Option Toml := (entries.find? (·.1 == key)).map (·.2)

/-- Change what stands under a key, present or not; the new value keeps its place. -/
def alter (f : Option Toml → Option Toml) (key : String) (entries : Entries) : Option Entries := do
  let v ← f (entries.get? key)
  if (entries.get? key).isSome then
    return entries.map fun (k, old) => if k == key then (k, v) else (k, old)
  else return entries ++ [(key, v)]

/-- Change the last of the tables under a header. -/
def alterLast (f : Entries → Option Entries) : List Entries → Option (List Entries)
  | [] => none
  | [last] => (fun e => [e]) <$> f last
  | first :: rest => (first :: ·) <$> alterLast f rest

/-- Add a value under a dotted key. Each part but the last names a table that dotted keys may
extend; one that is missing is made. A table that other headers imply, and the last element of an
array of tables, can be passed through but not extended. -/
def put (value : Toml) : List String → Entries → Option Entries
  | [], _ => none
  | [key], entries => alter (fun old => if old.isSome then none else some value) key entries
  | key :: rest, entries =>
    alter (fun old =>
      match old with
      | none => .table .dotted <$> put value rest []
      | some (.table .dotted inner) => .table .dotted <$> put value rest inner
      | some (.table .implied inner) =>
        if rest.length > 1 then .table .implied <$> put value rest inner else none
      | some (.tables elements) =>
        if rest.length > 1 then .tables <$> alterLast (put value rest) elements else none
      | some _ => none) key entries

/-- Change what stands under the last part of a header. The parts before it name tables that are not
inline; one that is missing is implied, and of an array of tables the last element is meant. -/
def alterAt (f : Option Toml → Option Toml) : List String → Entries → Option Entries
  | [], _ => none
  | [key], entries => alter f key entries
  | key :: rest, entries =>
    alter (fun old =>
      match old with
      | none => .table .implied <$> alterAt f rest []
      | some (.table .inline _) => none
      | some (.table origin inner) => .table origin <$> alterAt f rest inner
      | some (.tables elements) => .tables <$> alterLast (alterAt f rest) elements
      | some _ => none) key entries

/-- The entries of a table, its keys and values added in order. -/
def putAll (pairs : List (List String × Toml)) (entries : Entries) : Option Entries :=
  pairs.foldlM (fun entries (key, value) => put value key entries) entries

/-- Open the table of a header, which must not exist unless other headers implied it. -/
def openTable (path : List String) (pairs : List (List String × Toml)) : Entries → Option Entries :=
  alterAt (fun old =>
    match old with
    | none => .table .header <$> putAll pairs []
    | some (.table .implied entries) => .table .header <$> putAll pairs entries
    | some _ => none) path

/-- Add an element to the array of tables of a header. -/
def addElement (path : List String) (pairs : List (List String × Toml)) :
    Entries → Option Entries :=
  alterAt (fun old =>
    match old with
    | none => (fun entries => .tables [entries]) <$> putAll pairs []
    | some (.tables elements) =>
      (fun entries => .tables (elements ++ [entries])) <$> putAll pairs []
    | some _ => none) path

end Entries

end Toml

end DomainModel
