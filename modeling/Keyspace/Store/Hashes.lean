import Std.Data.ExtTreeMap
import Keyspace.Store.Counter

/-! # Hashes: under each key, one value for each field -/
namespace Keyspace
set_option autoImplicit false

abbrev Hash := Std.ExtTreeMap String String

abbrev Hashes := Std.ExtTreeMap String Hash

namespace Hash

def putAll (hash : Hash) : List (String × String) → Nat × Hash
  | [] => (0, hash)
  | (field, value) :: pairs =>
    let (added, result) := putAll (hash.insert field value) pairs
    ((!hash.contains field).toNat + added, result)

end Hash

namespace Hashes

def put (hashes : Hashes) (key : String) (pairs : List (String × String)) : Nat × Hashes :=
  let (added, hash) := Hash.putAll (hashes.getD key ∅) pairs
  (added, hashes.insert key hash)

def value? (hashes : Hashes) (key field : String) : Option String :=
  hashes[key]?.bind fun hash => hash[field]?

/-- The values of the fields that have one and whose value is not empty, if the key is known. -/
def values? (hashes : Hashes) (key : String) (fields : List String) : Option (List String) :=
  hashes[key]?.map fun hash =>
    (fields.filterMap fun field => hash[field]?).filter (· ≠ "")

/-- Adds to the counter in a field of a known hash. A value that is no counter, or one with no room
for the sum, stays as it is. -/
def add (hashes : Hashes) (key field : String) (amount : Int64) : Option Int64 × Hashes :=
  match hashes[key]? with
  | none => (none, hashes)
  | some hash =>
    match Counter.add? (hash.getD field Counter.initial) amount with
    | none => (none, hashes)
    | some sum => (some sum, hashes.insert key (hash.insert field (Counter.text sum)))

end Hashes
end Keyspace
