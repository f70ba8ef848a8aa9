-- Sorted sets by key, and the requests on them. A request that is refused, that only
-- asks, or that finds nothing to remove leaves the store as it was.
import Transcript.SortedSet
import Transcript.SortedSet.Reply
import Transcript.Decimal.Reader

namespace Transcript

/-- The sets by key. -/
structure Store where
  sets : Keyed SortedSet
deriving DecidableEq

namespace Store

def empty : Store := ⟨[]⟩

/-! ## Requests -/

/-- What the words of a request ask for. -/
inductive Request where
  | add (key : String) (score : Binary64) (name : String)
  | remove (key name : String)
  | lookup (key name : String)
  | query (key : String) (place : Member) (offset limit : Nat)
  | refused (reason : String)
deriving DecidableEq

/-- A count: below 2 ^ 64. -/
def readCount? (s : String) : Option Nat := Decimal.readNat? (twoTo 64) s.toList

def readScore? (s : String) : Option Binary64 := Decimal.read? s.toList

/-- The words of a range query. -/
def Request.ofQuery (key score name offset limit : String) : Request :=
  match readScore? score, readCount? offset, readCount? limit with
  | some score, some offset, some limit => .query key ⟨score, name⟩ offset limit
  | _, _, _ => .refused "expect numeric arguments"

def Request.ofWords : List String → Request
  | ["zadd", key, score, name] =>
    match readScore? score with
    | some score => .add key score name
    | none => .refused "expect fp number"
  | ["zrem", key, name] => .remove key name
  | ["zscore", key, name] => .lookup key name
  | ["zquery", key, score, name, offset, limit] => .ofQuery key score name offset limit
  | _ => .refused "unknown command"

/-! ## Answers -/

/-- One or zero. -/
def flag (b : Bool) : Reply := .int (if b then 1 else 0)

/-- Members as the names and scores of an array, in turn. -/
def page (members : List Member) : Reply :=
  .arr (members.flatMap fun m => [.str m.name, .double m.score])

/-- Answers a request. -/
def answer (s : Store) : Request → Reply × Store
  | .add key score name =>
    let (isNew, set) := ((s.sets.find? key).getD .empty).add name score
    (flag isNew, ⟨s.sets.put key set⟩)
  | .remove key name =>
    match s.sets.find? key with
    | some set =>
      let (found, set) := set.remove name
      (flag found, ⟨s.sets.put key set⟩)
    | none => (flag false, s)
  | .lookup key name =>
    match (s.sets.find? key).bind fun set => set.score? name with
    | some score => (.double score, s)
    | none => (.nil, s)
  | .query key place offset limit =>
    match s.sets.find? key with
    | some set => (page (set.query place offset limit), s)
    | none => (page [], s)
  | .refused reason => (.err reason, s)

/-- Answers the words of a request. -/
def handle (s : Store) (words : List String) : Reply × Store := s.answer (.ofWords words)

end Store

end Transcript
