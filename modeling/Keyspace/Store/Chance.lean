import Std.Data.ExtTreeSet
import Keyspace.SkipList.Height

/-! # Chance: what no command decides and no answer tells of -/
namespace Keyspace
set_option autoImplicit false

/-- An order in which the members of a set come up, each of them once. -/
structure Listing where
  members : Std.ExtTreeSet String → List String
  perm : ∀ set, (members set).Perm set.toList

instance : Inhabited Listing := ⟨Std.ExtTreeSet.toList, fun _ => .refl _⟩

/-- The coins of the sorted set that is made under a key, and the order of a set's members. -/
structure Chance where
  coins : String → Coins
  listing : Listing
  deriving Inhabited

end Keyspace
