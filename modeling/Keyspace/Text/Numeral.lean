/-! # Numerals: whole numbers as decimal text -/
namespace Keyspace.Text
set_option autoImplicit false

def readDigits (cs : List Char) : Option Nat :=
  if cs ≠ [] ∧ cs.all Char.isDigit then some (Nat.ofDigitChars 10 cs 0) else none

def readUnsigned : List Char → Option Nat
  | '+' :: cs => readDigits cs
  | cs => readDigits cs

def readSigned : List Char → Option Int
  | '-' :: cs => (readDigits cs).map fun n => -(n : Int)
  | cs => (readUnsigned cs).map Int.ofNat

def int64? (i : Int) : Option Int64 :=
  if Int64.minValue.toInt ≤ i ∧ i ≤ Int64.maxValue.toInt then some (Int64.ofInt i) else none

def readInt64 (s : String) : Option Int64 :=
  (readSigned s.toList).bind int64?

/-- The number of lines that a reply announces: an unsigned number of at most 64 bits. -/
def readCount (s : String) : Option Nat :=
  (readUnsigned s.toList).filter (· < UInt64.size)

def natText (n : Nat) : String :=
  String.ofList (Nat.toDigits 10 n)

def intText : Int → String
  | .ofNat n => natText n
  | .negSucc n => "-" ++ natText (n + 1)

end Keyspace.Text
