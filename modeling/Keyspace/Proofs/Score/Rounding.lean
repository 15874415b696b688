import Mathlib.Algebra.Group.Nat.Defs
import Mathlib.Order.Nat
import Keyspace.Score.Rounding

/-! # Rounding: a quotient that a rank holds exactly is rounded to that rank -/
namespace Keyspace
set_option autoImplicit false

theorem roundHalfEven_mul (n : Nat) {den : Nat} (h : 0 < den) :
    roundHalfEven (n * den) den = n := by
  have hDiv : n * den / den = n := Nat.mul_div_cancel n h
  have hMod : n * den % den = 0 := Nat.mul_mod_left n den
  simp [roundHalfEven, hDiv, hMod, h]

namespace Rank

variable {r : Rank}

theorem val_lt_infinityRank (h : r ≠ infinity) : r.val < infinityRank := by
  have hNe : r.val ≠ infinityRank := fun hEq => h (Fin.ext hEq)
  have hLt := r.isLt
  omega

theorem ofPlace_val (h : r ≠ infinity) : ofPlace r.val = r := by
  rw [ofPlace, dif_pos (val_lt_infinityRank h)]

theorem binade_eq : binade = 2 ^ 52 := rfl

theorem shift_significand (r : Rank) : r.shift * binade + r.significand = r.val := by
  have hSplit := Nat.div_add_mod' r.val binade
  by_cases hLow : r.val < binade
  · rw [shift, significand, if_pos hLow, Nat.div_eq_of_lt hLow, Nat.zero_sub, Nat.zero_mul,
      Nat.zero_add]
  · have hBinade : 1 ≤ r.val / binade :=
      (Nat.one_le_div_iff (by decide)).mpr (Nat.le_of_not_lt hLow)
    rw [shift, significand, if_neg hLow, ← Nat.add_assoc, ← Nat.succ_mul,
      Nat.succ_eq_add_one, Nat.sub_add_cancel hBinade, hSplit]

/-- The power of two to which a number rounds off is the shift of the rank it belongs to. -/
theorem log2_units (r : Rank) : r.units.log2 - 52 = r.shift := by
  by_cases hLow : r.val < binade
  · have hShift : r.shift = 0 := by rw [shift, Nat.div_eq_of_lt hLow]
    have hUnits : r.units = r.val := by
      rw [units, significand, if_pos hLow, hShift]
      exact Nat.mul_one r.val
    rw [hShift, hUnits]
    by_cases hZero : r.val = 0
    · rw [hZero]
      rfl
    · have hLog : r.val.log2 < 52 := (Nat.log2_lt hZero).mpr hLow
      exact Nat.sub_eq_zero_of_le hLog.le
  · have hMod : r.val % binade < binade := Nat.mod_lt _ (by decide)
    have hUnits : r.units = (binade + r.val % binade) * 2 ^ r.shift := by
      rw [units, significand, if_neg hLow]
      rfl
    have hLog : r.units.log2 = 52 + r.shift := by
      have hPos : 0 < (binade + r.val % binade) * 2 ^ r.shift :=
        Nat.mul_pos (Nat.add_pos_left (by decide : 0 < binade) _) (Nat.two_pow_pos _)
      refine (Nat.log2_eq_iff (hUnits ▸ hPos.ne')).mpr ⟨?_, ?_⟩
      · rw [hUnits, Nat.pow_add, ← binade_eq]
        exact Nat.mul_le_mul_right _ (Nat.le_add_right ..)
      · rw [hUnits, Nat.add_right_comm, Nat.pow_add, Nat.pow_succ, ← binade_eq]
        exact Nat.mul_lt_mul_of_pos_right (by omega) (Nat.two_pow_pos _)
    rw [hLog, Nat.add_sub_cancel_left]

theorem nearest_of_units {num den : Nat} (h : r ≠ infinity) (hDen : 0 < den)
    (hUnits : num * Nat.pow 2 1074 = r.units * den) : nearest num den = r := by
  have hPos : 0 < den * 2 ^ r.shift := Nat.mul_pos hDen (Nat.two_pow_pos _)
  have hParts : r.units * den = r.significand * (den * 2 ^ r.shift) := by
    rw [units, Nat.pow_eq, Nat.mul_right_comm, Nat.mul_assoc]
  simp only [nearest, hUnits]
  rw [Nat.mul_div_cancel _ hDen, log2_units, Nat.pow_eq, hParts, roundHalfEven_mul _ hPos,
    shift_significand, ofPlace_val h]

end Rank
end Keyspace
