-- How headers and dotted keys make up tables. A table is defined once: by its header,
-- by the keys that lead into it, or in one piece; only a table that merely stands on the
-- way to another may still get its own header.
import Transcript.Toml
import Transcript.Keyed

namespace Transcript.Toml

/-! ## Tables under way -/

/-- What made a table. -/
inductive Origin where
  /-- A header that leads through it. -/
  | passed
  /-- A dotted key that leads through it. -/
  | dotted
  /-- A header of its own. -/
  | headed
deriving DecidableEq

/-- An entry of a table under way: a finished value, a table, or a list of tables. -/
inductive Node where
  | value (v : Value)
  | table (origin : Origin) (entries : List (String × Node))
  | tables (elements : List (List (String × Node)))

abbrev Entries := Keyed Node

/-! ## Finished tables -/

mutual

def Node.toValue : Node → Value
  | .value v => v
  | .table _ entries => .table (toTable entries)
  | .tables elements => .arr (toTables elements)

def toTable : List (String × Node) → Table
  | [] => []
  | (name, node) :: rest => (name, node.toValue) :: toTable rest

def toTables : List (List (String × Node)) → List Value
  | [] => []
  | entries :: rest => .table (toTable entries) :: toTables rest

end

/-! ## Changing an inner table -/

/-- Changes the table at the end of a path, given its origin and its entries, and makes
the tables on the way that are not there. A list of tables leads into its last one. Dotted
keys do not lead into a table with a header of its own. -/
def changeAt (dotted : Bool) (change : Origin → Entries → Option Entries) :
    List String → Origin → Entries → Option Entries
  | [], origin, entries => change origin entries
  | key :: path, _, entries =>
    match entries.find? key with
    | none =>
      let origin : Origin := if dotted then .dotted else .passed
      (changeAt dotted change path origin []).map fun inner =>
        entries.put key (.table origin inner)
    | some (.table origin inner) =>
      if dotted ∧ origin = .headed then none
      else
        (changeAt dotted change path origin inner).map fun inner =>
          entries.put key (.table origin inner)
    | some (.tables elements) =>
      match elements.getLast? with
      | none => none
      | some inner =>
        (changeAt dotted change path .headed inner).map fun inner =>
          entries.put key (.tables (elements.dropLast ++ [inner]))
    | some (.value _) => none

/-- Adds a value under the last part of a key. The parts before it lead into tables that
only dotted keys have made. -/
def addValue (path : List String) (key : String) (v : Value) (entries : Entries) : Option Entries :=
  let change (origin : Origin) (inner : Entries) : Option Entries :=
    if decide (origin = .dotted) == path.isEmpty then none
    else if (inner.find? key).isSome then none
    else some (inner ++ [(key, .value v)])
  changeAt true change path .headed entries

/-- The path before the last part of a key, and that part. -/
def splitKey (key : List String) : List String × String := (key.dropLast, key.getLast?.getD "")

/-! ## Sections -/

/-- A document under way: the tables finished so far, and the table whose section this
is, with its key; the key is empty before the first header. -/
structure Section where
  root : Entries
  key : List String
  isElement : Bool
  current : Entries

namespace Section

def first : Section := ⟨[], [], false, []⟩

/-- The tables with that of this section among them. Its place is the last one, also where
headers before it only passed through it. -/
def close (s : Section) : Option Entries :=
  let (path, name) := splitKey s.key
  if s.key.isEmpty then some s.current
  else if s.isElement then
    changeAt false (fun _ entries =>
      match entries.find? name with
      | none => some (entries.put name (.tables [s.current]))
      | some (.tables elements) => some (entries.put name (.tables (elements ++ [s.current])))
      | some _ => none) path .headed s.root
  else
    changeAt false
      (fun _ entries => some (entries.erase name ++ [(name, .table .headed s.current)]))
      path .headed s.root

/-- What a table holds before its header: nothing, or what headers that passed through it
put there. None where the name is taken otherwise. -/
def heldAt : List String → String → Entries → Option Entries
  | [], name, entries =>
    match entries.find? name with
    | none => some []
    | some (.table .passed inner) => some inner
    | some _ => none
  | key :: path, name, entries =>
    match entries.find? key with
    | none => some []
    | some (.table _ inner) => heldAt path name inner
    | some (.tables elements) => heldAt path name (elements.getLast?.getD [])
    | some (.value _) => none

/-- The section of a header for one table. -/
def openTable (s : Section) (key : List String) : Option Section := do
  let root ← s.close
  let (path, name) := splitKey key
  let held ← heldAt path name root
  return ⟨root, key, false, held⟩

/-- The section of a header for one more table of a list. -/
def openElement (s : Section) (key : List String) : Option Section := do
  let root ← s.close
  return ⟨root, key, true, []⟩

/-- Adds a value to the table of this section. -/
def add (s : Section) (key : List String) (v : Value) : Option Section := do
  let (path, name) := splitKey key
  let current ← addValue path name v s.current
  return { s with current := current }

end Section

end Transcript.Toml
