import Std.Data.ExtTreeMap
import Keyspace.Store.Chance

/-! # Sets: under each key, distinct members -/
namespace Keyspace
set_option autoImplicit false

abbrev Sets := Std.ExtTreeMap String (Std.ExtTreeSet String)

namespace Sets

/-- Adds a member. Answers how many are new, one or none. -/
def add (sets : Sets) (key member : String) : Nat × Sets :=
  let set := sets.getD key ∅
  ((!set.contains member).toNat, sets.insert key (set.insert member))

def remove (sets : Sets) (key member : String) : Option Nat × Sets :=
  match sets[key]? with
  | none => (none, sets)
  | some set => (some (set.contains member).toNat, sets.insert key (set.erase member))

def count? (sets : Sets) (key member : String) : Option Nat :=
  sets[key]?.map fun set => (set.contains member).toNat

/-- The members of the smallest set that all the others have too, as they come up and then put in
order. -/
def common (listing : Listing) (sets : List (Std.ExtTreeSet String)) : List String :=
  match sets.mergeSort fun a b => a.size ≤ b.size with
  | [] => []
  | smallest :: rest =>
    let members := (listing.members smallest).filter fun member => rest.all (·.contains member)
    members.mergeSort fun a b => a ≤ b

def inter? (sets : Sets) (listing : Listing) (keys : List String) : Option (List String) :=
  (keys.mapM fun key => sets[key]?).map (common listing)

def card (sets : Sets) (key : String) : Nat :=
  match sets[key]? with
  | none => 0
  | some set => set.size

end Sets
end Keyspace
