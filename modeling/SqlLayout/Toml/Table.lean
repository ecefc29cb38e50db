import SqlLayout.Options.Setting

/-!
# Tables of configuration files

A table keeps its entries in the order in which they were made. Entries are made at the end of a
path of keys; tables on the way are made as needed, and the last table of an array of tables
stands for the array where the path may enter arrays.
-/

namespace SqlLayout.Toml

/-- The entries of a table. -/
abbrev Entries := List (String × Setting)

namespace Entries

/-- The entries with a new value under a key that is present. -/
def replace (entries : Entries) (key : String) (value : Setting) : Entries :=
  entries.map fun entry => if entry.1 = key then (key, value) else entry

/-- Changes the table at the end of a path. -/
def update (entersArrays : Bool) (change : Entries → Option Entries) :
    (path : List String) → Entries → Option Entries
  | [], entries => change entries
  | key :: path, entries =>
    match entries.lookup key with
    | none => (update entersArrays change path []).map fun inner =>
        entries ++ [(key, .table inner)]
    | some (.table inner) => (update entersArrays change path inner).map fun changed =>
        entries.replace key (.table changed)
    | some (.list items) =>
      match entersArrays, items.getLast? with
      | true, some (.table inner) => (update entersArrays change path inner).map fun changed =>
          entries.replace key (.list (items.dropLast ++ [.table changed]))
      | _, _ => none
    | some _ => none

/-- Adds an entry, if its key is not taken. -/
def insert (key : String) (value : Setting) (entries : Entries) : Option Entries :=
  match entries.lookup key with
  | none => some (entries ++ [(key, value)])
  | some _ => none

/-- Adds an empty table to the array of tables under a key. -/
def appendTable (key : String) (entries : Entries) : Option Entries :=
  match entries.lookup key with
  | none => some (entries ++ [(key, .list [.table []])])
  | some (.list items) => some (entries.replace key (.list (items ++ [.table []])))
  | some _ => none

end Entries

end SqlLayout.Toml
