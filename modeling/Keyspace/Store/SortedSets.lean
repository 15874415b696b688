import Std.Data.ExtTreeMap
import Keyspace.SkipList.Update
import Keyspace.SkipList.Range

/-! # Sorted sets: under each key, members in the order of their scores -/
namespace Keyspace
set_option autoImplicit false

abbrev SortedSets := Std.ExtTreeMap String SkipList

namespace SortedSets

/-- Adds a member, or gives it another score. Answers whether it is new. What is not a number is
refused before the key is made known; the coins are for a key that was not. -/
def add (sets : SortedSets) (coins : Coins) (key : String) (score : Score) (member : String) :
    Bool × SortedSets :=
  if score.isNaN then (false, sets)
  else
    let (added, list) := (sets.getD key (SkipList.empty coins)).insert member score
    (added, sets.insert key list)

def remove (sets : SortedSets) (key member : String) : Bool × SortedSets :=
  match sets[key]? with
  | none => (false, sets)
  | some list =>
    let (removed, list) := list.remove member
    (removed, sets.insert key list)

def score? (sets : SortedSets) (key member : String) : Option Score :=
  sets[key]?.bind fun list => list.score? member

def range (sets : SortedSets) (key : String) (minScore maxScore : Score) (offset count : Nat) :
    List ScoredMember :=
  match sets[key]? with
  | none => []
  | some list => list.range minScore maxScore offset count

def query (sets : SortedSets) (key : String) (minScore : Score) (minMember : String)
    (maxScore : Score) (maxMember : String) (offset count : Nat) : List ScoredMember :=
  match sets[key]? with
  | none => []
  | some list => list.query minScore minMember maxScore maxMember offset count

def removeRange (sets : SortedSets) (key : String) (minScore maxScore : Score)
    (offset count : Nat) : Nat × SortedSets :=
  match sets[key]? with
  | none => (0, sets)
  | some list =>
    let (removed, list) := list.removeRange minScore maxScore offset count
    (removed, sets.insert key list)

def card (sets : SortedSets) (key : String) : Nat :=
  match sets[key]? with
  | none => 0
  | some list => list.size

end SortedSets
end Keyspace
