import Std.Data.ExtTreeMap
import Keyspace.Store.Counter

/-! # Strings: one value under each key -/
namespace Keyspace
set_option autoImplicit false

abbrev Strings := Std.ExtTreeMap String String

namespace Strings

def put (strings : Strings) (key value : String) : Strings :=
  strings.insert key value

def value? (strings : Strings) (key : String) : Option String := strings[key]?

def remove (strings : Strings) (key : String) : Bool × Strings :=
  (strings.contains key, strings.erase key)

/-- Adds to the counter under a key, which is set to the initial one first if the key is unknown. A
value that is no counter, or one with no room for the sum, stays as it is. -/
def add (strings : Strings) (key : String) (amount : Int64) : Option Int64 × Strings :=
  let strings := strings.insertIfNew key Counter.initial
  match Counter.add? (strings.getD key Counter.initial) amount with
  | none => (none, strings)
  | some sum => (some sum, strings.insert key (Counter.text sum))

end Strings
end Keyspace
