import Std.Data.ExtTreeMap
import Keyspace.Store.Direction

/-! # Lists: under each key, values in sequence

A key becomes known when something is pushed to its list, popped from it or asked of its length,
and stays known when the list is empty. -/
namespace Keyspace
set_option autoImplicit false

abbrev Lists := Std.ExtTreeMap String (List String)

namespace Lists

def push (lists : Lists) (d : Direction) (key value : String) : Nat × Lists :=
  let list := d.push value (lists.getD key [])
  (list.length, lists.insert key list)

def pop (lists : Lists) (d : Direction) (key : String) : Option String × Lists :=
  let list := lists.getD key []
  match d.pop list with
  | none => (none, lists.insert key list)
  | some (value, rest) => (some value, lists.insert key rest)

def length (lists : Lists) (key : String) : Nat × Lists :=
  let list := lists.getD key []
  (list.length, lists.insert key list)

/-- Takes a value out at one end and adds it at an end of the destination. If the source is empty
or a direction is not one, no value moves; a value that is out by then goes back to where it was. -/
def move (lists : Lists) (source destination fromEnd toEnd : String) : Option String × Lists :=
  let list := lists.getD source []
  match Direction.read fromEnd with
  | .error _ => (none, lists.insert source list)
  | .ok popEnd =>
    match popEnd.pop list with
    | none => (none, lists.insert source list)
    | some (value, rest) =>
      match Direction.read toEnd with
      | .error _ => (none, lists.insert source (popEnd.push value rest))
      | .ok pushEnd =>
        let lists := lists.insert source rest
        (some value, lists.insert destination (pushEnd.push value (lists.getD destination [])))

/-- An index counted from the front; one below zero counts from the end, but stops at the front. -/
def fromFront (size index : Int64) : Int64 :=
  if index < 0 then max (size + index) 0 else index

/-- The first and the last position between two indices, both included, of a list of the given
length, if there is one. -/
def bounds? (start stop : Int64) (length : Nat) : Option (Nat × Nat) :=
  let size := Int64.ofNat length
  let first := min (fromFront size start) size
  let last := min (fromFront size stop) (size - 1)
  if last < first ∨ size ≤ first then none
  else some (first.toNatClampNeg, last.toNatClampNeg)

def range? (lists : Lists) (key : String) (start stop : Int64) : Option (List String) :=
  lists[key]?.map fun list =>
    match bounds? start stop list.length with
    | none => []
    | some (first, last) => (list.drop first).take (last - first + 1)

/-- Cuts off the end of a list, then the front, and leaves what `range?` gives. Answers whether the
key is known. -/
def trim (lists : Lists) (key : String) (start stop : Int64) : Bool × Lists :=
  match lists[key]? with
  | none => (false, lists)
  | some list =>
    match bounds? start stop list.length with
    | none => (true, lists.insert key [])
    | some (first, last) => (true, lists.insert key ((list.take (last + 1)).drop first))

end Lists
end Keyspace
