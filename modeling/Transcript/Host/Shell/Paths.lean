-- Patterns of paths: the paths of the files that one matches, directory by directory.
import Transcript.Host.Shell.Fields
import Transcript.Host.Shell.State

namespace Transcript.Host.Paths

/-- A pattern up to the first of its names that is more than a name: what leads to it, the name
itself, and what follows it if anything does. -/
structure Search where
  lead : Octets
  name : Octets
  isPattern : Bool
  rest : Option Octets

/-- A bracket behind its first sign is closed before the name ends. -/
def isClosed : Nat → Octets → Bool
  | 0, _ => false
  | fuel + 1, s =>
    let s := if s.head? = some '\\' then s.tail else s
    match s with
    | [] => false
    | '/' :: _ => false
    | _ :: ']' :: _ => true
    | _ :: rest => isClosed fuel rest

/-- Looks for the first name that is a pattern, with the parts read so far the last first. -/
def search : Nat → Search → Octets → Search
  | 0, s, _ => s
  | _, s, [] => { s with lead := s.lead.reverse, name := s.name.reverse }
  | fuel + 1, s, c :: rest =>
    let put (cs : List Char) : Octets := cs.reverse ++ s.name
    let slash (read : List Char) (rest : Octets) : Search :=
      if s.isPattern then
        { s with lead := s.lead.reverse, name := s.name.reverse, rest := some rest }
      else search fuel { s with lead := read.reverse ++ s.name ++ s.lead, name := [] } rest
    match c, rest with
    | '*', _ | '?', _ => search fuel { s with name := put [c], isPattern := true } rest
    | '[', _ =>
      let inner := if rest.head? = some '!' then rest.tail else rest
      let isPattern := s.isPattern || isClosed (rest.length + 1) inner
      search fuel { s with name := put [c], isPattern := isPattern } rest
    | '\\', '/' :: rest => slash ['\\', '/'] rest
    | '\\', d :: rest => search fuel { s with name := put ['\\', d] } rest
    | '/', _ => slash ['/'] rest
    | _, _ => search fuel { s with name := put [c] } rest

/-- A pattern without the backslashes in it. -/
def plain : Octets → Octets
  | '\\' :: c :: rest => c :: plain rest
  | c :: rest => c :: plain rest
  | [] => []

/-- The paths below a directory that a pattern matches. -/
def below : Nat → Octets → Octets → Sh (List Octets)
  | 0, _, _ => return []
  | fuel + 1, directory, pattern => do
    let s := search (pattern.length + 1) ⟨[], [], false, none⟩ pattern
    if !s.isPattern then
      if directory.isEmpty then return []
      let path := directory ++ plain pattern
      let status : Except HostError FileStatus ← Steps.ask (.status path false)
      return if status.toBool then [path] else []
    else
      let directory := directory ++ plain s.lead
      let here := if directory.isEmpty then ['.'] else directory
      let names : Except HostError (List Octets) ← Steps.ask (.list here)
      let first := if s.name.head? = some '\\' then s.name.tail else s.name
      let isShown (name : Octets) : Bool := name.head? ≠ some '.' || first.head? = some '.'
      let names := (names.toOption.getD []).filter fun name =>
        isShown name && Pattern.isMatch s.name name
      match s.rest with
      | none => return names.map (directory ++ ·)
      | some rest =>
        let found ← names.mapM fun name => below fuel (directory ++ name ++ ['/']) rest
        return found.flatten

/-- The paths that a field matches, in order; a field that matches none stands for itself. -/
def ofField (cells : List Cell) : Sh (List Octets) := do
  let text := Cell.text cells
  if (← get).isOn .noglob || !(text.any fun c => c = '*' || c = '?' || c = '[') then return [text]
  let pattern := Cell.pattern cells
  let found ← below (pattern.length + 1) [] pattern
  if found.isEmpty then return [text]
  return found.mergeSort Octets.precedes

end Transcript.Host.Paths
