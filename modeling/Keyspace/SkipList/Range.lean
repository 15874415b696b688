import Keyspace.Text.Numeral
import Keyspace.SkipList.Basic

/-! # Reading a skip list: one score, all entries, or a stretch of them -/
namespace Keyspace

abbrev ScoredMember := String × Score

namespace SkipList
set_option autoImplicit false

def score? (l : SkipList) (member : String) : Option Score := l.scores[member]?

def size (l : SkipList) : Nat := l.scores.size

def isEmpty (l : SkipList) : Bool := l.scores.isEmpty

def entriesAfter? (l : SkipList) (path : Path) : Option (List ScoredMember) := do
  let nodes ← l.arena.nodesFrom? (← after? l.arena path)
  some (nodes.map fun node => (node.member, node.score))

def toList? (l : SkipList) : Option (List ScoredMember) :=
  l.entriesAfter? [Arena.headSlot]

def toList (l : SkipList) : List ScoredMember := l.toList?.getD []

/-- The entries from the first that the test rejects, less `offset` of them, as long as they stay
within, at most `count`. -/
def scan? (l : SkipList) (below : Node → Bool) (within : ScoredMember → Bool)
    (offset count : Nat) : Option (List ScoredMember) := do
  let entries ← l.entriesAfter? (← seek? l.arena l.level below)
  some (((entries.drop offset).takeWhile within).take count)

def range? (l : SkipList) (minScore maxScore : Score) (offset count : Nat) :
    Option (List ScoredMember) :=
  l.scan? (fun node => node.score.lt minScore) (fun entry => entry.2.le maxScore) offset count

def query? (l : SkipList) (minScore : Score) (minMember : String) (maxScore : Score)
    (maxMember : String) (offset count : Nat) : Option (List ScoredMember) :=
  l.scan? (fun node => node.precedes minScore minMember)
    (fun entry => entry.2.lt maxScore || (entry.2.same maxScore && entry.1 ≤ maxMember))
    offset count

def range (l : SkipList) (minScore maxScore : Score) (offset count : Nat) : List ScoredMember :=
  (l.range? minScore maxScore offset count).getD []

def query (l : SkipList) (minScore : Score) (minMember : String) (maxScore : Score)
    (maxMember : String) (offset count : Nat) : List ScoredMember :=
  (l.query? minScore minMember maxScore maxMember offset count).getD []

def summary (l : SkipList) : String :=
  "OrderedIndex \x7b len: " ++ Text.natText l.size ++ ", level: " ++ Text.natText l.level ++ " \x7d"

end SkipList
end Keyspace
