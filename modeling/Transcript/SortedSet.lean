-- A set of names, each with a score. It is kept twice: by name, to look a score up,
-- and in order of score and name, to walk a range. Every change keeps both in step.
import Transcript.Keyed
import Transcript.Decimal.Binary64

namespace Transcript

/-! ## Order -/

/-- A member: its score and its name. -/
structure Member where
  score : Binary64
  name : String
deriving DecidableEq

/-- Names in the order of their characters, which is the order of their bytes. -/
def nameBefore : List Char → List Char → Bool
  | _, [] => false
  | [], _ :: _ => true
  | a :: as, b :: bs => if a = b then nameBefore as bs else a.toNat < b.toNat

/-- Members in order of their scores, and of their names where the scores are the same. -/
def Member.before (a b : Member) : Bool :=
  if a.score.rank = b.score.rank then nameBefore a.name.toList b.name.toList
  else a.score.rank < b.score.rank

/-! ## The set -/

structure SortedSet where
  byName : Keyed Binary64
  ordered : List Member
deriving DecidableEq

namespace SortedSet

def empty : SortedSet := ⟨[], []⟩

/-- A member put in its place. A member that is there already stays. -/
def insertOrdered (m : Member) : List Member → List Member
  | [] => [m]
  | x :: rest =>
    if m = x then x :: rest
    else if m.before x then m :: x :: rest
    else x :: insertOrdered m rest

/-- A member taken out, and whether it was there. -/
def removeOrdered (m : Member) (ordered : List Member) : Bool × List Member :=
  (ordered.contains m, ordered.erase m)

def score? (s : SortedSet) (name : String) : Option Binary64 := s.byName.find? name

/-- Gives a name a score; true when the name is new. -/
def add (s : SortedSet) (name : String) (score : Binary64) : Bool × SortedSet :=
  let byName := s.byName.put name score
  match s.score? name with
  | some old =>
    (false, ⟨byName, insertOrdered ⟨score, name⟩ (removeOrdered ⟨old, name⟩ s.ordered).2⟩)
  | none => (true, ⟨byName, insertOrdered ⟨score, name⟩ s.ordered⟩)

/-- Takes a name out; true when its member was found. -/
def remove (s : SortedSet) (name : String) : Bool × SortedSet :=
  match s.score? name with
  | some score =>
    let (found, ordered) := removeOrdered ⟨score, name⟩ s.ordered
    (found, ⟨s.byName.erase name, ordered⟩)
  | none => (false, s)

/-- The members at or after a place in the order. -/
def membersFrom (s : SortedSet) (place : Member) : List Member :=
  s.ordered.dropWhile fun m => m.before place

/-- Members until `limit` elements are out, a name and a score counting as one each. The
count is looked at before each member, so an odd limit is passed by one. -/
def takeElements (limit : Nat) : Nat → List Member → List Member
  | _, [] => []
  | out, m :: rest => if limit ≤ out then [] else m :: takeElements limit (out + 2) rest

/-- A page of the members at or after a place, with the first `offset` passed over. -/
def query (s : SortedSet) (place : Member) (offset limit : Nat) : List Member :=
  takeElements limit 0 ((s.membersFrom place).drop offset)

end SortedSet

end Transcript
