import Keyspace.Store.SortedSets
import Keyspace.Store.Strings
import Keyspace.Store.Lists
import Keyspace.Store.Sets
import Keyspace.Store.Hashes

/-! # The store: five namespaces, in which one key names five things -/
namespace Keyspace
set_option autoImplicit false

@[ext]
structure Store where
  sortedSets : SortedSets
  strings : Strings
  lists : Lists
  sets : Sets
  hashes : Hashes
  chance : Chance

namespace Store

def empty (chance : Chance) : Store := ⟨∅, ∅, ∅, ∅, ∅, chance⟩

instance : Inhabited Store := ⟨empty default⟩

end Store
end Keyspace
