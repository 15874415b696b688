import Mathlib.Tactic.Ring
import Keyspace.Proofs.Score.Decimal
import Keyspace.Proofs.Score.Rounding

/-! # The shortest decimal of a rank rounds to that rank -/
namespace Keyspace
set_option autoImplicit false

namespace Decimal

theorem exists_dropZeros (coefficient places : Nat) :
    ∃ c p : Nat, dropZeros coefficient places = ⟨c, -p⟩ ∧
      c * 10 ^ places = coefficient * 10 ^ p := by
  induction places generalizing coefficient with
  | zero => exact ⟨coefficient, 0, rfl, rfl⟩
  | succ places ih =>
    by_cases hZero : coefficient % 10 = 0
    · obtain ⟨c, p, hDrop, hEq⟩ := ih (coefficient / 10)
      have hTen : coefficient / 10 * 10 = coefficient :=
        Nat.div_mul_cancel (Nat.dvd_of_mod_eq_zero hZero)
      refine ⟨c, p, by rw [dropZeros, if_pos hZero, hDrop], ?_⟩
      calc c * 10 ^ (places + 1) = c * 10 ^ places * 10 := by rw [Nat.pow_succ, Nat.mul_assoc]
        _ = coefficient / 10 * 10 * 10 ^ p := by rw [hEq, Nat.mul_right_comm]
        _ = coefficient * 10 ^ p := by rw [hTen]
    · exact ⟨coefficient, places + 1, by rw [dropZeros, if_neg hZero], rfl⟩

theorem exists_plain (d : Decimal) : ∃ c p : Nat, d.plain = ⟨c, -p⟩ := by
  obtain ⟨c, p, hDrop, -⟩ :=
    exists_dropZeros (d.coefficient * Nat.pow 10 d.exponent.toNat) (-d.exponent).toNat
  exact ⟨c, p, hDrop⟩

theorem plain_eq (coefficient places : Nat) :
    plain ⟨coefficient, -places⟩ = dropZeros coefficient places := by
  simp [plain]

end Decimal

namespace Rank

variable {r : Rank}

theorem units_eq_zero (h : r.units = 0) : r.val = 0 := by
  have hSignificand : r.significand = 0 :=
    (Nat.mul_eq_zero.mp h).resolve_right (Nat.two_pow_pos _).ne'
  rw [significand] at hSignificand
  split at hSignificand
  · exact hSignificand
  · have hBinade : 0 < binade := by decide
    omega

/-- A number that is no less than 2^-1074 has not that many places more than digits. -/
theorem places_lt {c p : Nat} (hUnits : c * Nat.pow 2 1074 = r.units * 10 ^ p) (hZero : c ≠ 0) :
    3 * p < c.log2 + 1075 := by
  have hOne : 1 ≤ r.units := by
    apply Nat.one_le_iff_ne_zero.mpr
    intro hNone
    rw [hNone, Nat.zero_mul] at hUnits
    exact (Nat.mul_pos (Nat.pos_of_ne_zero hZero) (Nat.two_pow_pos _)).ne' hUnits
  apply (Nat.pow_lt_pow_iff_right (by decide : 1 < 2)).mp
  calc 2 ^ (3 * p) = 8 ^ p := by rw [Nat.pow_mul]
    _ ≤ 10 ^ p := Nat.pow_le_pow_left (by decide) p
    _ ≤ r.units * 10 ^ p := Nat.le_mul_of_pos_left _ hOne
    _ = c * Nat.pow 2 1074 := hUnits.symm
    _ < 2 ^ (c.log2 + 1) * Nat.pow 2 1074 :=
      Nat.mul_lt_mul_of_pos_right Nat.lt_log2_self (Nat.two_pow_pos _)
    _ = 2 ^ (c.log2 + 1075) := (Nat.pow_add 2 (c.log2 + 1) 1074).symm

theorem rank_of_units (h : r ≠ infinity) {c p : Nat}
    (hUnits : c * Nat.pow 2 1074 = r.units * 10 ^ p) : Decimal.rank ⟨c, -p⟩ = r := by
  by_cases hZero : c = 0
  · have hVal : r.val = 0 := by
      have hTen : 10 ^ p ≠ 0 := (Nat.pow_pos (by decide)).ne'
      refine units_eq_zero ((Nat.mul_eq_zero.mp ?_).resolve_right hTen)
      rw [← hUnits, hZero, Nat.zero_mul]
    rw [Decimal.rank, if_pos hZero, ← hVal, ofPlace_val h]
  · have hPlaces := places_lt hUnits hZero
    have hLarge : ¬ (310 : Int) < -p := by omega
    have hSmall : ¬ (c.log2 : Int) + 1200 < 3 * -(-(p : Int)) := by omega
    have hNearest : nearest (c * Nat.pow 10 (-(p : Int)).toNat)
        (Nat.pow 10 (-(-(p : Int))).toNat) = r := by
      rw [Int.neg_neg, Int.toNat_natCast, Int.toNat_neg_natCast]
      apply nearest_of_units h (Nat.pow_pos (by decide))
      exact (congrArg (· * Nat.pow 2 1074) (Nat.mul_one c)).trans hUnits
    rw [Decimal.rank, if_neg hZero, if_neg hLarge, if_neg hSmall, hNearest]

theorem exists_decimal (r : Rank) :
    ∃ c p : Nat, r.decimal = ⟨c, -p⟩ ∧ c * Nat.pow 2 1074 = r.units * 10 ^ p := by
  by_cases hShift : 1074 ≤ r.shift
  · refine ⟨r.significand * Nat.pow 2 (r.shift - 1074), 0, by rw [decimal, if_pos hShift]; rfl, ?_⟩
    rw [units, Nat.pow_eq, Nat.pow_eq, Nat.pow_eq, Nat.mul_assoc, ← Nat.pow_add,
      Nat.sub_add_cancel hShift, Nat.pow_zero, Nat.mul_one]
  · refine ⟨r.significand * Nat.pow 5 (1074 - r.shift), 1074 - r.shift,
      by rw [decimal, if_neg hShift], ?_⟩
    have hSplit : Nat.pow 2 1074 = 2 ^ (1074 - r.shift) * 2 ^ r.shift := by
      rw [← Nat.pow_add, Nat.sub_add_cancel (Nat.le_of_not_le hShift), Nat.pow_eq]
    have hTen : 10 ^ (1074 - r.shift) = 5 ^ (1074 - r.shift) * 2 ^ (1074 - r.shift) := by
      rw [← Nat.mul_pow]
    rw [hSplit, hTen, units, Nat.pow_eq, Nat.pow_eq]
    ring

/-- The exact value of a rank, written plainly, has that rank. -/
theorem rank_plain_decimal (h : r ≠ infinity) : r.decimal.plain.rank = r := by
  obtain ⟨c, p, hDecimal, hUnits⟩ := exists_decimal r
  obtain ⟨c', p', hDrop, hEq⟩ := Decimal.exists_dropZeros c p
  rw [hDecimal, Decimal.plain_eq, hDrop]
  have hTen : 0 < 10 ^ p := Nat.pow_pos (by decide)
  refine rank_of_units h (Nat.eq_of_mul_eq_mul_right hTen ?_)
  calc c' * Nat.pow 2 1074 * 10 ^ p = c' * 10 ^ p * Nat.pow 2 1074 := Nat.mul_right_comm ..
    _ = c * Nat.pow 2 1074 * 10 ^ p' := by rw [hEq, Nat.mul_right_comm]
    _ = r.units * 10 ^ p' * 10 ^ p := by rw [hUnits, Nat.mul_right_comm]

theorem of_decimalOfDigits {digits : Nat} {d : Decimal} (h : r.decimalOfDigits digits = some d) :
    (∃ c p : Nat, d = ⟨c, -p⟩) ∧ d.rank = r := by
  simp only [decimalOfDigits] at h
  split at h
  · rename_i hBelow
    cases h
    exact ⟨Decimal.exists_plain _, hBelow.1⟩
  · split at h
    · rename_i hAbove
      cases h
      exact ⟨Decimal.exists_plain _, hAbove⟩
    · cases h

theorem shortest_spec (h : r ≠ infinity) :
    (∃ c p : Nat, r.shortest = ⟨c, -p⟩) ∧ r.shortest.rank = r := by
  rw [shortest]
  cases hFind : (List.range 17).findSome? fun n => r.decimalOfDigits (n + 1) with
  | none => exact ⟨Decimal.exists_plain _, rank_plain_decimal h⟩
  | some d =>
    obtain ⟨n, -, hDigits⟩ := List.exists_of_findSome?_eq_some hFind
    exact of_decimalOfDigits hDigits

end Rank
end Keyspace
