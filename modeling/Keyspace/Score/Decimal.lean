import Keyspace.Text.Numeral
import Keyspace.Score.Rounding

/-! # Decimals: numbers written with a point and a power of ten -/
namespace Keyspace
set_option autoImplicit false

/-- The number `coefficient · 10 ^ exponent`. -/
structure Decimal where
  coefficient : Nat
  exponent : Int
  deriving DecidableEq, Repr, Inhabited

namespace Decimal

def readExponent : List Char → Option Int
  | [] => some 0
  | 'e' :: cs => Text.readSigned cs
  | 'E' :: cs => Text.readSigned cs
  | _ => none

/-- Digits, of which a point may part some, and a power of ten: at least one digit is needed. -/
def read (cs : List Char) : Option Decimal :=
  let whole := cs.takeWhile Char.isDigit
  let (fraction, rest) :=
    match cs.dropWhile Char.isDigit with
    | '.' :: tail => (tail.takeWhile Char.isDigit, tail.dropWhile Char.isDigit)
    | tail => ([], tail)
  match Text.readDigits (whole ++ fraction), readExponent rest with
  | some coefficient, some exponent => some ⟨coefficient, exponent - fraction.length⟩
  | _, _ => none

/-- A decimal without a power of ten: the whole part, then a point and the fraction if there is
one. -/
def chars (d : Decimal) : List Char :=
  let places := (-d.exponent).toNat
  let coefficient := d.coefficient * Nat.pow 10 d.exponent.toNat
  let one := Nat.pow 10 places
  let whole := Nat.toDigits 10 (coefficient / one)
  if places = 0 then whole
  else whole ++ '.' :: (Nat.toDigits 10 (coefficient % one)).leftpad places '0'

/-- The rank nearest to a decimal. The first three cases spare powers of ten that the answer does
not need: from 10^311 on every number rounds to infinity, and below 2^-1199 to zero. -/
def rank (d : Decimal) : Rank :=
  if d.coefficient = 0 then .ofPlace 0
  else if 310 < d.exponent then .infinity
  else if (d.coefficient.log2 : Int) + 1200 < 3 * -d.exponent then .ofPlace 0
  else Rank.nearest (d.coefficient * Nat.pow 10 d.exponent.toNat) (Nat.pow 10 (-d.exponent).toNat)

def dropZeros (coefficient : Nat) : Nat → Decimal
  | 0 => ⟨coefficient, 0⟩
  | places + 1 =>
    if coefficient % 10 = 0 then dropZeros (coefficient / 10) places
    else ⟨coefficient, -(places + 1 : Nat)⟩

def plain (d : Decimal) : Decimal :=
  dropZeros (d.coefficient * Nat.pow 10 d.exponent.toNat) (-d.exponent).toNat

end Decimal

namespace Rank

def decimal (r : Rank) : Decimal :=
  if 1074 ≤ r.shift then ⟨r.significand * Nat.pow 2 (r.shift - 1074), 0⟩
  else ⟨r.significand * Nat.pow 5 (1074 - r.shift), -(1074 - r.shift : Nat)⟩

/-- Of the two decimals of `digits` digits next to the value of a rank, the nearer one of those
that round to it. Half way between them it is the greater one. -/
def decimalOfDigits (r : Rank) (digits : Nat) : Option Decimal :=
  let exact := r.decimal
  let dropped := (Nat.toDigits 10 exact.coefficient).length - digits
  let step := Nat.pow 10 dropped
  let below := Decimal.plain ⟨exact.coefficient / step, exact.exponent + dropped⟩
  let above := Decimal.plain ⟨exact.coefficient / step + 1, exact.exponent + dropped⟩
  if below.rank = r ∧ (above.rank ≠ r ∨ 2 * (exact.coefficient % step) < step) then some below
  else if above.rank = r then some above
  else none

/-- The decimal of fewest digits that rounds to a rank; 17 digits always suffice. -/
def shortest (r : Rank) : Decimal :=
  ((List.range 17).findSome? fun n => r.decimalOfDigits (n + 1)).getD r.decimal.plain

end Rank
end Keyspace
