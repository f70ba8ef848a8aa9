-- A tree of files, and how a path leads through it: name by name from a directory, along
-- the links on its way.
import Transcript.Host.HostError
import Transcript.Host.Octets

namespace Transcript.Host

/-! ## What a tree holds -/

/-- The programs of the host. -/
inductive Program where
  | sh
  | printf
  | echo
  | yes
  | no
  | cat
  | pwd
  | sleep
  | touch
  | sets
deriving DecidableEq

/-- Files that are no store of bytes. What is written to the void is lost and nothing is read
from it; the full device takes nothing; a descriptor stands for one of the process that
opens it. -/
inductive Device where
  | void
  | zeros
  | full
  | terminal
  | descriptor (n : Nat)
deriving DecidableEq

/-- What stands at a place. -/
inductive Entry where
  | directory
  | file (content : List UInt8)
  | program (p : Program)
  | link (target : Octets)
  | device (d : Device)
deriving DecidableEq

/-- An entry with the time when it was changed last, in microseconds, and its special bits. -/
structure Node where
  entry : Entry
  modified : Int
  mode : Nat
deriving DecidableEq

/-- A path from the root without links, by its names. -/
abbrev Place := List Octets

/-- The nodes by their places. -/
abbrev Files := List (Place × Node)

/-- A place as an absolute path. -/
def Place.path (place : Place) : Octets :=
  if place.isEmpty then ['/'] else place.flatMap fun name => '/' :: name

/-- The place that an absolute path without links names. -/
def Place.ofPath (path : Octets) : Place :=
  (path.split '/').filter fun name => !name.isEmpty && name ≠ ['.']

/-- Puts a value at a key. -/
def putAt {κ α : Type} [DecidableEq κ] (key : κ) (value : α) : List (κ × α) → List (κ × α)
  | [] => [(key, value)]
  | (k, v) :: rest => if k = key then (key, value) :: rest else (k, v) :: putAt key value rest

namespace Files

/-! ## Places -/

/-- What stands at a place. The root is always there. -/
def node? (files : Files) (place : Place) : Option Node :=
  if place.isEmpty then some ⟨.directory, 0, 0⟩ else List.lookup place files

/-- Whether a directory stands at a place. -/
def isDirectory (files : Files) (place : Place) : Bool :=
  match files.node? place with
  | some ⟨.directory, _, _⟩ => true
  | _ => false

/-- Puts a node at a place. -/
def put (place : Place) (node : Node) (files : Files) : Files := putAt place node files

/-- Puts a node at a place, and the directories that lead to it. -/
def putDeep (files : Files) (place : Place) (node : Node) : Files :=
  let parents := (List.range place.length).map fun n => place.take n
  (parents.foldl (fun files p =>
    if (files.node? p).isNone then files.put p ⟨.directory, node.modified, 0⟩ else files)
    files).put place node

/-- The names in a directory. -/
def namesIn (files : Files) (directory : Place) : List Octets :=
  files.filterMap fun (place, _) =>
    if place.length = directory.length + 1 ∧ directory.isPrefixOf place then place.getLast?
    else none

/-! ## Paths -/

/-- The names of a path. -/
def names (path : Octets) : List Octets := (path.split '/').filter fun name => !name.isEmpty

/-- The longest path, and the longest name in one. -/
def longestPath : Nat := 4095

def longestName : Nat := 255

/-- The most links that one path may lead along. -/
def mostLinks : Nat := 40

/-- Follows names from a place. The last name may lead to no node, and a link that it leads to
is followed only where that is asked for. -/
def walk (files : Files) (follow : Bool) : Nat → Nat → Place → List Octets →
    Except HostError (Place × Option Node)
  | 0, _, _, _ => .error .tooManyLinks
  | _, _, place, [] => .ok (place, files.node? place)
  | fuel + 1, links, place, name :: rest =>
    if !files.isDirectory place then .error .notDirectory
    else if longestName < name.length then .error .nameTooLong
    else if name = ['.'] then walk files follow fuel links place rest
    else if name = ['.', '.'] then walk files follow fuel links place.dropLast rest
    else
      let next := place ++ [name]
      match files.node? next with
      | none => if rest.isEmpty then .ok (next, none) else .error .noEntry
      | some node =>
        match node.entry with
        | .link target =>
          if rest.isEmpty && !follow then .ok (next, some node)
          else if links = mostLinks then .error .tooManyLinks
          else
            let start := if target.head? = some '/' then [] else place
            walk files follow fuel (links + 1) start (names target ++ rest)
        | _ => walk files follow fuel links next rest

/-- Follows the names of a path. -/
def walkPath (files : Files) (directory : Place) (follow : Bool) (path : Octets)
    (names : List Octets) : Except HostError (Place × Option Node) :=
  if path.isEmpty then .error .noEntry
  else if longestPath < path.length then .error .nameTooLong
  else files.walk follow (path.length + 10000) 0 (if path.head? = some '/' then [] else directory)
    names

/-- A path that ends in a slash can only lead to a directory. -/
def endsInSlash (path : Octets) : Bool := path.getLast? = some '/'

/-- The place of a path, seen from a directory, and what stands there. -/
def locate (files : Files) (directory : Place) (follow : Bool) (path : Octets) :
    Except HostError (Place × Option Node) := do
  let slash := endsInSlash path
  let (place, node) ← files.walkPath directory (follow || slash) path (names path)
  if slash then
    match node with
    | none => throw .noEntry
    | some _ => if files.isDirectory place then return (place, node) else throw .notDirectory
  else return (place, node)

/-- The node at a path. -/
def find (files : Files) (directory : Place) (follow : Bool) (path : Octets) :
    Except HostError (Place × Node) := do
  match ← files.locate directory follow path with
  | (place, some node) => return (place, node)
  | (_, none) => throw .noEntry

/-- The place of a path at which a file may be made. -/
def locateNew (files : Files) (directory : Place) (path : Octets) :
    Except HostError (Place × Option Node) := do
  if endsInSlash path ∧ !(names path).isEmpty then
    let (parent, node) ← files.walkPath directory true path (names path).dropLast
    if node.isNone then throw .noEntry
    else if files.isDirectory parent then throw .isDirectory
    else throw .notDirectory
  else files.locate directory true path

/-- The place of a directory. -/
def enter (files : Files) (directory : Place) (path : Octets) : Except HostError Place := do
  let (place, _) ← files.find directory true path
  if files.isDirectory place then return place else throw .notDirectory

/-! ## Contents -/

/-- The content of the file at a path. -/
def read (files : Files) (directory : Place) (path : Octets) : Except HostError (List UInt8) := do
  match (← files.find directory true path).2.entry with
  | .directory => throw .isDirectory
  | .file content => return content
  | _ => return []

end Files

end Transcript.Host
