import ReactivePage.Dict

/-!
TOML documents as trees of tables, and the rules by which a document grows.

Each table remembers how it came to be, since that decides who may add to it: a header opens a
table once, dotted keys extend only tables that dotted keys made, and an inline table is closed.
-/

namespace ReactivePage

inductive Toml.Origin
  | header
  | implied
  | dotted
  | inline
  deriving DecidableEq

inductive Toml
  | text (s : String)
  | flag (b : Bool)
  | number
  | date
  | list (items : List Toml)
  | table (origin : Toml.Origin) (entries : List (String × Toml))
  | tables (elements : List (List (String × Toml)))

namespace Toml

abbrev Entries := List (String × Toml)

def depthLimit : Nat := 80

/-- Changes the entries of the table at a path. `byKey` tells that the path is part of a dotted
key and not of a header; `origin` is that of the table in hand. -/
def alter (byKey : Bool) (origin : Origin) (entries : Entries)
    (f : Origin → Entries → Option Entries) : List String → Option Entries
  | [] => f origin entries
  | key :: rest =>
    match findEntry key entries with
    | none => do
      let made := if byKey then Origin.dotted else Origin.implied
      let inner ← alter byKey made [] f rest
      return putEntry key (.table made inner) entries
    | some (.table o inner) =>
      if o = .inline ∨ (byKey ∧ o = .header) then none
      else do
        let inner ← alter byKey o inner f rest
        return putEntry key (.table o inner) entries
    | some (.tables elements) =>
      match elements.reverse with
      | [] => none
      | last :: front => do
        let inner ← alter byKey .header last f rest
        return putEntry key (.tables (front.reverse ++ [inner])) entries
    | some _ => none

def openTable (entries : Entries) (path : List String) (key : String) : Option Entries :=
  alter false .header entries
    (fun _ entries =>
      match findEntry key entries with
      | none => some (putEntry key (.table .header []) entries)
      | some (.table .implied inner) => some (putEntry key (.table .header inner) entries)
      | some _ => none) path

def openNext (entries : Entries) (path : List String) (key : String) : Option Entries :=
  alter false .header entries
    (fun _ entries =>
      match findEntry key entries with
      | none => some (putEntry key (.tables [[]]) entries)
      | some (.tables elements) => some (putEntry key (.tables (elements ++ [[]])) entries)
      | some _ => none) path

/-- Adds an entry under a key whose parts but the last are `path`. No key is given twice, and a
table made by dotted keys takes entries by dotted keys alone. -/
def addEntry (entries : Entries) (path : List String) (key : String) (value : Toml) :
    Option Entries :=
  alter true .header entries
    (fun origin entries =>
      if decide (origin = .dotted) = path.isEmpty then none
      else if (findEntry key entries).isSome then none
      else some (putEntry key value entries)) path

def addEntryAt (entries : Entries) (current : List String) (path : List String) (key : String)
    (value : Toml) : Option Entries :=
  alter false .header entries (fun _ inner => addEntry inner path key value) current

end Toml

end ReactivePage
