import Keyspace.Text.Numeral

/-! # Counters: texts that spell a number and can be added to -/
namespace Keyspace.Counter
set_option autoImplicit false

def initial : String := "0"

/-- The number that a text spells and an amount more, if it spells one and the sum is in range. -/
def add? (stored : String) (amount : Int64) : Option Int64 :=
  (Text.readInt64 stored).bind fun current => Text.int64? (current.toInt + amount.toInt)

def text (n : Int64) : String := Text.intText n.toInt

end Keyspace.Counter
