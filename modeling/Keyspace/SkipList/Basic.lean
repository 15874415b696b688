import Std.Data.ExtTreeMap
import Keyspace.SkipList.Arena

/-! # Skip lists: members in the order of score and member, on levels of ever fewer nodes

Each operation here ends in `none` if it meets a link that leads out of the arena, or a level that
does not end. On a list that grew from the empty one neither happens. -/
namespace Keyspace
set_option autoImplicit false

/-- Members with their scores. The levels below `level` are in use; `scores` has the score of every
member. -/
structure SkipList where
  arena : Arena
  level : Nat
  scores : Std.ExtTreeMap String Score
  coins : Coins

/-- For each level, the slot after which something is to be linked or unlinked. -/
abbrev Path := List Slot

namespace SkipList

def empty (coins : Coins) : SkipList := ⟨Arena.empty, 1, ∅, coins⟩

instance : Inhabited SkipList := ⟨empty default⟩

def advance? (a : Arena) (test : Node → Bool) (level : Nat) : (fuel : Nat) → Slot → Option Slot
  | 0, _ => none
  | fuel + 1, slot => do
    match ← a.next? slot level with
    | none => some slot
    | some next =>
      let node ← a.nodes[next]?
      if test node then advance? a test level fuel next else some slot

/-- Walks the given number of levels from the top one down, each from where the one above ended,
and answers the ends from the lowest level up. -/
def descend? (a : Arena) (test : Node → Bool) : (levels : Nat) → Slot → Option Path
  | 0, _ => some []
  | level + 1, slot => do
    let stop ← advance? a test level a.nodes.size slot
    let lower ← descend? a test level stop
    some (lower ++ [stop])

/-- For each level the last slot whose node passes the test, or the head's; the head's also where
a level is not in use. -/
def seek? (a : Arena) (level : Nat) (test : Node → Bool) : Option Path := do
  let path ← descend? a test level Arena.headSlot
  some (path ++ List.replicate (maxHeight - level) Arena.headSlot)

def after? (a : Arena) (path : Path) : Option (Option Slot) := do
  a.next? (← path[0]?) 0

def linkLevel? (slot : Slot) (path : Path) (a : Arena) (level : Nat) : Option Arena := do
  let before ← path[level]?
  let a ← a.setNext? slot level (← a.next? before level)
  a.setNext? before level (some slot)

def link? (a : Arena) (slot : Slot) (path : Path) : Option Arena := do
  let node ← a.nodes[slot]?
  (List.range node.height).foldlM (linkLevel? slot path) a

/-- Takes a slot out of the given levels, up to the first on which it does not come right after
the path. -/
def unlink? (slot : Slot) (path : Path) : (levels : List Nat) → Arena → Option Arena
  | [], a => some a
  | level :: levels, a => do
    let before ← path[level]?
    if (← a.next? before level) = some slot then
      let a ← a.setNext? before level (← a.next? slot level)
      unlink? slot path levels a
    else some a

/-- How many of the lowest levels are in use: empty levels at the top are not, but the lowest one
always is. -/
def usedLevels? (a : Arena) : (levels : Nat) → Option Nat
  | level + 2 => do
    match ← a.next? Arena.headSlot (level + 1) with
    | none => usedLevels? a (level + 1)
    | some _ => some (level + 2)
  | level => some level

def drop? (l : SkipList) (slot : Slot) (path : Path) : Option SkipList := do
  let node ← l.arena.nodes[slot]?
  let arena ← unlink? slot path (List.range l.level) l.arena
  let arena ← arena.release? slot
  some { l with arena, scores := l.scores.erase node.member, level := ← usedLevels? arena l.level }

end SkipList
end Keyspace
