/-! # Scores: the numbers that order a set, and the comparisons between them -/
namespace Keyspace
set_option autoImplicit false

/-- How many magnitudes there are from a power of two to the next: 2^52. -/
def binade : Nat := 0x10000000000000

/-- How many magnitudes lie below infinity: those of 2047 binades. -/
def infinityRank : Nat := 2047 * binade

/-- The place of a magnitude among all that a 64-bit binary number can hold, zero first and
infinity last. -/
abbrev Rank := Fin (infinityRank + 1)

namespace Rank

def infinity : Rank := Fin.last infinityRank

def ofPlace (place : Nat) : Rank :=
  if h : place < infinityRank then ⟨place, Nat.lt_succ_of_lt h⟩ else infinity

end Rank

/-- A 64-bit binary floating-point number. Zero has two signs; what is not a number has none. -/
inductive Score where
  | nan
  | number (negative : Bool) (rank : Rank)
  deriving DecidableEq, Repr, Inhabited

namespace Score

def zero : Score := number false (.ofPlace 0)
def infinity : Score := number false .infinity
def negInfinity : Score := number true .infinity

def isNaN : Score → Bool
  | nan => true
  | number _ _ => false

def position? : Score → Option Int
  | nan => none
  | number negative rank => some (if negative then -(rank.val : Int) else rank.val)

def compareBy (test : Int → Int → Bool) (a b : Score) : Bool :=
  match a.position?, b.position? with
  | some x, some y => test x y
  | _, _ => false

def lt : Score → Score → Bool := compareBy fun x y => x < y
def le : Score → Score → Bool := compareBy fun x y => x ≤ y

/-- Equality in the order: the two zeros are the same, and what is not a number is not even the
same as itself. -/
def same : Score → Score → Bool := compareBy fun x y => x = y

theorem isNaN_iff {s : Score} : s.isNaN = true ↔ s = nan := by
  cases s <;> simp [isNaN]

end Score
end Keyspace
