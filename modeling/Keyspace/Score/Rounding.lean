import Keyspace.Score.Basic

/-! # Rounding: the rank nearest to a quotient -/
namespace Keyspace
set_option autoImplicit false

/-- The whole number nearest to `num / den`; half way between two it is the even one. -/
def roundHalfEven (num den : Nat) : Nat :=
  let floor := num / den
  let twice := 2 * (num % den)
  if twice < den then floor
  else if den < twice then floor + 1
  else floor + floor % 2

namespace Rank

def significand (r : Rank) : Nat :=
  if r.val < binade then r.val else binade + r.val % binade

/-- The power of two by which the significand of a rank exceeds that of the lowest ranks. -/
def shift (r : Rank) : Nat := r.val / binade - 1

/-- How many times a rank below infinity holds 2^-1074, the least magnitude above zero. -/
def units (r : Rank) : Nat := r.significand * Nat.pow 2 r.shift

/-- The rank nearest to `num / den`, ties to the even one. In a binade the quotient is rounded to a
multiple of a power of two; where that rounds it up out of the binade it enters the next. -/
def nearest (num den : Nat) : Rank :=
  let scaled := num * Nat.pow 2 1074
  let shift := (scaled / den).log2 - 52
  ofPlace (shift * binade + roundHalfEven scaled (den * Nat.pow 2 shift))

end Rank
end Keyspace
