/-! # Heights: on how many levels a node takes part, and the coins that decide it -/
namespace Keyspace
set_option autoImplicit false

def maxHeight : Nat := 32

/-- The number of levels, counted from the lowest, on which a node is linked. -/
structure Height where
  val : Nat
  one_le : 1 ≤ val
  le_max : val ≤ maxHeight
  deriving DecidableEq, Repr

namespace Height

/-- One level, and one more for each toss won, as far as there are levels. -/
def ofTosses (won : Nat) : Height :=
  ⟨min won (maxHeight - 1) + 1, by omega, by simp only [maxHeight]; omega⟩

instance : Inhabited Height := ⟨ofTosses 0⟩

end Height

/-- All tosses that there will ever be, whatever they are, and how many are made already. -/
structure Coins where
  tosses : Nat → Bool
  made : Nat := 0
  deriving Inhabited

namespace Coins

def toss (coins : Coins) : Bool × Coins :=
  (coins.tosses coins.made, { coins with made := coins.made + 1 })

def tossesWon (coins : Coins) : (limit : Nat) → Nat × Coins
  | 0 => (0, coins)
  | limit + 1 =>
    match coins.toss with
    | (false, coins) => (0, coins)
    | (true, coins) =>
      let (won, coins) := coins.tossesWon limit
      (won + 1, coins)

def drawHeight (coins : Coins) : Height × Coins :=
  let (won, coins) := coins.tossesWon (maxHeight - 1)
  (Height.ofTosses won, coins)

end Coins
end Keyspace
