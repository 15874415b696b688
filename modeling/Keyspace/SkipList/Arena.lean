import Keyspace.Score.Basic
import Keyspace.SkipList.Height

/-! # The arena of a skip list: nodes that name each other by slot, and the slots to use again -/
namespace Keyspace
set_option autoImplicit false

abbrev Slot := Nat

/-- A member with its score; `forward[i]?` is the slot of its successor on level `i`, if it takes
part in that level. -/
structure Node where
  member : String
  score : Score
  forward : Array (Option Slot)
  deriving DecidableEq, Repr, Inhabited

namespace Node

def unlinked (member : String) (score : Score) (height : Nat) : Node :=
  ⟨member, score, Array.replicate height none⟩

def head : Node := unlinked "" Score.negInfinity maxHeight

def vacant : Node := unlinked "" Score.zero 0

def height (n : Node) : Nat := n.forward.size

def precedes (n : Node) (score : Score) (member : String) : Bool :=
  n.score.lt score || (n.score.same score && n.member < member)

def follows (n : Node) (score : Score) (member : String) : Bool :=
  score.lt n.score || (score.same n.score && member < n.member)

end Node

/-- Slot 0 is the head's. A slot once made is kept: when its node is taken out, it joins `free`. -/
structure Arena where
  nodes : Array Node
  free : List Slot
  deriving DecidableEq, Repr

namespace Arena

def headSlot : Slot := 0

def empty : Arena := ⟨#[Node.head], []⟩

instance : Inhabited Arena := ⟨empty⟩

/-- The successor on a level; the outer `none` says that there is no such slot, or that its node
does not take part in the level. -/
def next? (a : Arena) (slot : Slot) (level : Nat) : Option (Option Slot) := do
  let node ← a.nodes[slot]?
  node.forward[level]?

def setNext? (a : Arena) (slot : Slot) (level : Nat) (next : Option Slot) : Option Arena := do
  let node ← a.nodes[slot]?
  if level < node.height then
    let node := { node with forward := node.forward.setIfInBounds level next }
    some { a with nodes := a.nodes.setIfInBounds slot node }
  else none

def setScore? (a : Arena) (slot : Slot) (score : Score) : Option Arena := do
  let node ← a.nodes[slot]?
  some { a with nodes := a.nodes.setIfInBounds slot { node with score } }

/-- Gives a node the slot that was set free last, or else a new one. -/
def alloc? (a : Arena) (node : Node) : Option (Slot × Arena) :=
  match a.free with
  | [] => some (a.nodes.size, { a with nodes := a.nodes.push node })
  | slot :: free =>
    if slot < a.nodes.size then some (slot, ⟨a.nodes.setIfInBounds slot node, free⟩) else none

def release? (a : Arena) (slot : Slot) : Option Arena :=
  if slot < a.nodes.size then
    some ⟨a.nodes.setIfInBounds slot Node.vacant, slot :: a.free⟩
  else none

/-- The slots that lead on from a link along a level, in order, given that there are fewer of them
than `fuel`. -/
def chain? (a : Arena) (level : Nat) : (fuel : Nat) → Option Slot → Option (List Slot)
  | _, none => some []
  | 0, some _ => none
  | fuel + 1, some slot => do
    let next ← a.next? slot level
    let rest ← a.chain? level fuel next
    some (slot :: rest)

def nodesFrom? (a : Arena) (start : Option Slot) : Option (List Node) := do
  let slots ← a.chain? 0 a.nodes.size start
  slots.mapM fun slot => a.nodes[slot]?

end Arena
end Keyspace
