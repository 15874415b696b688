import Keyspace.SkipList.Basic

/-! # Changing a skip list: inserting, rescoring and removing members -/
namespace Keyspace.SkipList
set_option autoImplicit false

/-- Whether a node would come, with another score, between its neighbours on the lowest level. -/
def staysInPlace? (a : Arena) (before slot : Slot) (member : String) (score : Score) :
    Option Bool := do
  let follows ←
    if before = Arena.headSlot then some true
    else (a.nodes[before]?).map fun node => node.precedes score member
  let precedes ←
    match ← a.next? slot 0 with
    | none => some true
    | some next => (a.nodes[next]?).map fun node => node.follows score member
  some (follows && precedes)

/-- Takes a node out of its levels, gives it another score and links it again, in its slot and at
its height. -/
def relink? (a : Arena) (level : Nat) (slot : Slot) (path : Path) (member : String)
    (score : Score) : Option Arena := do
  let a ← unlink? slot path (List.range level) a
  let a ← a.setScore? slot score
  link? a slot (← seek? a level fun node => node.precedes score member)

def rescore? (l : SkipList) (member : String) (old new : Score) : Option SkipList := do
  let path ← seek? l.arena l.level fun node => node.precedes old member
  match ← after? l.arena path with
  | none => none
  | some slot =>
    let arena ←
      if ← staysInPlace? l.arena (← path[0]?) slot member new then l.arena.setScore? slot new
      else relink? l.arena l.level slot path member new
    some { l with arena, scores := l.scores.insert member new }

/-- Adds a member, or gives it another score. Answers whether it is new: only then is a height drawn
for it. What is not a number is refused, and a score that compares equal to the old one does not
replace it. -/
def insertBy? (draw : Coins → Height × Coins) (l : SkipList) (member : String) (score : Score) :
    Option (Bool × SkipList) :=
  if score.isNaN then some (false, l)
  else
    match l.scores[member]? with
    | some old =>
      if old.same score then some (false, l)
      else (l.rescore? member old score).map fun l => (false, l)
    | none => do
      let path ← seek? l.arena l.level fun node => node.precedes score member
      let (height, coins) := draw l.coins
      let (slot, arena) ← l.arena.alloc? (Node.unlinked member score height.val)
      let arena ← link? arena slot path
      let level := max l.level height.val
      some (true, { arena, level, scores := l.scores.insert member score, coins })

def remove? (l : SkipList) (member : String) : Option (Bool × SkipList) :=
  match l.scores[member]? with
  | none => some (false, l)
  | some score => do
    let path ← seek? l.arena l.level fun node => node.precedes score member
    match ← after? l.arena path with
    | none => none
    | some slot => (l.drop? slot path).map fun l => (true, l)

def skip? (a : Arena) : (offset : Nat) → Path → Option Slot → Option (Path × Option Slot)
  | offset + 1, path, some slot => do
    let node ← a.nodes[slot]?
    let passed := List.replicate node.height slot ++ path.drop node.height
    skip? a offset passed (← node.forward[0]?)
  | _, path, cursor => some (path, cursor)

/-- Drops nodes after a path while their scores are not above a bound, at most `count` of them.
Answers how many. -/
def dropWhile? (maxScore : Score) (path : Path) :
    (count : Nat) → Option Slot → SkipList → Option (Nat × SkipList)
  | count + 1, some slot, l => do
    let node ← l.arena.nodes[slot]?
    if node.score.le maxScore then
      let (dropped, l) ← dropWhile? maxScore path count (← node.forward[0]?) (← l.drop? slot path)
      some (dropped + 1, l)
    else some (0, l)
  | _, _, l => some (0, l)

/-- Takes out the members with scores within the bounds, after the first `offset` that are not
below the lower one, at most `count` of them. Answers how many. -/
def removeRange? (l : SkipList) (minScore maxScore : Score) (offset count : Nat) :
    Option (Nat × SkipList) := do
  let path ← seek? l.arena l.level fun node => node.score.lt minScore
  let (path, cursor) ← skip? l.arena offset path (← after? l.arena path)
  dropWhile? maxScore path count cursor l

def insert (l : SkipList) (member : String) (score : Score) : Bool × SkipList :=
  (l.insertBy? Coins.drawHeight member score).getD (false, l)

def remove (l : SkipList) (member : String) : Bool × SkipList :=
  (l.remove? member).getD (false, l)

def removeRange (l : SkipList) (minScore maxScore : Score) (offset count : Nat) :
    Nat × SkipList :=
  (l.removeRange? minScore maxScore offset count).getD (0, l)

end Keyspace.SkipList
