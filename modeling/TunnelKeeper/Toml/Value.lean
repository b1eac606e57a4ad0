/-!
# TOML values and tables — what the lines of a document build

A document is a table that its lines fill in one after the other.  While it is being filled, a
table remembers how it came to be (`Origin`): by its own header, on the way to another header, or
on the way of a dotted key.  A header may complete a table of the second kind only; a dotted key
may go on filling a table of the third kind only; no key is set twice.  Inline tables follow the
rules of dotted keys among themselves and are closed when they end.
-/

namespace TunnelKeeper.Toml

/-- A value of a finished document.  Numbers with a point or an exponent and dates are kept as
they are written. -/
inductive Value where
  | text (s : String)
  | integer (n : Int)
  | float (written : String)
  | bool (b : Bool)
  | date (written : String)
  | list (items : List Value)
  | table (entries : List (String × Value))
deriving Repr, Inhabited

/-- How a table came to be. -/
inductive Origin where
  /-- By its own header; also the document itself and the elements of a list of tables. -/
  | header
  /-- On the way to another header. -/
  | path
  /-- On the way of a dotted key. -/
  | dotted
deriving DecidableEq, Repr

/-- A place of a document that is being filled.  The tables of a list come last first. -/
inductive Branch where
  | value (v : Value)
  | table (origin : Origin) (entries : List (String × Branch))
  | tables (tables : List (List (String × Branch)))
deriving Repr, Inhabited

/-- The entries of a table that is being filled, in the order in which they came. -/
abbrev Branches := List (String × Branch)

namespace Branches

def find? (key : String) : Branches → Option Branch
  | [] => none
  | (k, b) :: rest => if k = key then some b else find? key rest

/-- Replaces the branch under a key, or puts it at the end. -/
def set (key : String) (branch : Branch) : Branches → Branches
  | [] => [(key, branch)]
  | (k, b) :: rest => if k = key then (key, branch) :: rest else (k, b) :: set key branch rest

/-- Walks down a path and changes the table it ends in.  Tables that are missing on the way are
made; `dotted` says whether this is the path of a dotted key, which may not enter a table that has
its own header. -/
def modify (dotted : Bool) (change : Origin → Branches → Option Branches) :
    (path : List String) → Origin → Branches → Option Branches
  | [], origin, entries => change origin entries
  | key :: path, _, entries =>
    match find? key entries with
    | none =>
      let origin := if dotted then .dotted else .path
      (modify dotted change path origin []).map fun inner => set key (.table origin inner) entries
    | some (.value _) => none
    | some (.table origin inner) =>
      if dotted && origin == .header then none
      else
        (modify dotted change path origin inner).map fun inner =>
          set key (.table origin inner) entries
    | some (.tables []) => none
    | some (.tables (last :: earlier)) =>
      (modify dotted change path .header last).map fun last =>
        set key (.tables (last :: earlier)) entries

/-- Sets a key that is not there yet. -/
def add (key : String) (branch : Branch) (entries : Branches) : Option Branches :=
  match find? key entries with
  | none => some (set key branch entries)
  | some _ => none

/-- Sets a key at the end of a dotted path, which must end in a table of dotted keys. -/
def assign (path : List String) (key : String) (value : Value) (origin : Origin)
    (entries : Branches) : Option Branches :=
  modify true
    (fun origin inner =>
      if (origin == .dotted) == path.isEmpty then none else add key (.value value) inner)
    path origin entries

/-- Opens the table of a header: one that is not there or that was only passed on the way. -/
def openTable (key : String) (entries : Branches) : Option Branches :=
  match find? key entries with
  | none => some (set key (.table .header []) entries)
  | some (.table .path inner) => some (set key (.table .header inner) entries)
  | some _ => none

/-- Opens the next table of a list of tables. -/
def openElement (key : String) (entries : Branches) : Option Branches :=
  match find? key entries with
  | none => some (set key (.tables [[]]) entries)
  | some (.tables tables) => some (set key (.tables ([] :: tables)) entries)
  | some _ => none

end Branches

mutual

/-- The value of a place once nothing more can be added. -/
def Branch.close : Branch → Value
  | .value v => v
  | .table _ entries => .table (closeEntries entries)
  | .tables tables => .list (closeTables tables)

def closeEntries : List (String × Branch) → List (String × Value)
  | [] => []
  | (key, branch) :: rest => (key, branch.close) :: closeEntries rest

/-- The tables of a list, first one first. -/
def closeTables : List (List (String × Branch)) → List Value
  | [] => []
  | last :: earlier => closeTables earlier ++ [.table (closeEntries last)]

end

theorem Branches.find?_set_self (key : String) (branch : Branch) (entries : Branches) :
    find? key (set key branch entries) = some branch := by
  induction entries with
  | nil => simp [set, find?]
  | cons entry rest ih =>
    obtain ⟨k, b⟩ := entry
    by_cases h : k = key <;> simp [set, find?, h, ih]

end TunnelKeeper.Toml
