/-! # Blanks: where the words of a request part, and which characters leave a line blank -/
namespace Keyspace.Text
set_option autoImplicit false

/-- The blanks between the words of a request: space, tab, line feed, form feed, carriage return. -/
def isSeparator (c : Char) : Bool :=
  c = ' ' || c = '\t' || c = '\n' || c = '\x0c' || c = '\r'

/-- The characters with the Unicode property White_Space. -/
def isWhiteSpace (c : Char) : Bool :=
  let n := c.toNat
  (0x09 ≤ n && n ≤ 0x0D) || n = 0x20 || n = 0x85 || n = 0xA0 || n = 0x1680 ||
    (0x2000 ≤ n && n ≤ 0x200A) || n = 0x2028 || n = 0x2029 || n = 0x202F || n = 0x205F ||
    n = 0x3000

theorem isWhiteSpace_of_isSeparator {c : Char} (h : isSeparator c = true) :
    isWhiteSpace c = true := by
  simp only [isSeparator, Bool.or_eq_true, decide_eq_true_eq] at h
  rcases h with (((rfl | rfl) | rfl) | rfl) | rfl <;> decide

/-- The longest pieces of a text that hold no separator, in order. -/
def words (s : String) : List String :=
  ((s.toList.splitOnP isSeparator).filter (· ≠ [])).map String.ofList

/-- A word is what a request can carry as one argument: not empty, and without separators. -/
def IsWord (s : String) : Prop :=
  s ≠ "" ∧ ∀ c ∈ s.toList, isSeparator c = false

instance (s : String) : Decidable (IsWord s) :=
  @instDecidableAnd _ _ inferInstance (List.decidableBAll _ _)

def isBlank (s : String) : Bool :=
  s.toList.all isWhiteSpace

def trimEnd (s : String) : String :=
  String.ofList (s.toList.reverse.dropWhile isWhiteSpace).reverse

def trim (s : String) : String :=
  trimEnd (String.ofList (s.toList.dropWhile isWhiteSpace))

def asciiLower (s : String) : String :=
  String.ofList (s.toList.map Char.toLower)

end Keyspace.Text
