import Keyspace.Text.Blank
import Keyspace.Score.Decimal

/-! # Scores as text: any decimal is read, the shortest one is written -/
namespace Keyspace.Score
set_option autoImplicit false

def readMagnitude (negative : Bool) (cs : List Char) : Option Score :=
  let name := cs.map Char.toLower
  if name = "inf".toList ∨ name = "infinity".toList then
    some (number negative .infinity)
  else if name = "nan".toList then some nan
  else (Decimal.read cs).map fun d => number negative d.rank

def read (s : String) : Option Score :=
  match s.toList with
  | '-' :: cs => readMagnitude true cs
  | '+' :: cs => readMagnitude false cs
  | cs => readMagnitude false cs

/-- The fewest digits that read back as the same number, never with a power of ten. -/
def text : Score → String
  | nan => "NaN"
  | number negative rank =>
    let magnitude := if rank = .infinity then "inf".toList else rank.shortest.chars
    String.ofList (if negative then '-' :: magnitude else magnitude)

end Keyspace.Score
