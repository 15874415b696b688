import Mathlib.Algebra.Order.Field.Basic
import Mathlib.Algebra.Order.Ring.Abs
import Mathlib.Data.Rat.Cast.Order
import Mathlib.Tactic.FieldSimp
import Mathlib.Tactic.Linarith
import Mathlib.Tactic.Positivity
import Mathlib.Tactic.Ring
import Keyspace.Score.Decimal
import Keyspace.Proofs.Score.Rounding

/-! # Nearest ranks: a decimal is rounded to the nearest rank, half way to the even one -/
namespace Keyspace
set_option autoImplicit false

theorem cast_div_eq (num : Nat) {den : Nat} (h : 0 < den) :
    (num : ℚ) / den = (num / den : Nat) + (num % den : Nat) / den := by
  have hDen : (0 : ℚ) < den := by exact_mod_cast h
  have hSum : (num : ℚ) = den * (num / den : Nat) + (num % den : Nat) := by
    exact_mod_cast (Nat.div_add_mod num den).symm
  field_simp
  linarith

theorem abs_sub_next {n : Nat} {part : ℚ} (h : part < 1) :
    |n + part - (n + 1 : Nat)| = 1 - part := by
  have hDistance : n + part - (n + 1 : Nat) = -(1 - part) := by
    push_cast
    ring
  rw [hDistance, abs_neg, abs_of_pos (by linarith)]

/-- Rounding goes half way at most, and just half way to an even number only. -/
theorem abs_sub_roundHalfEven (num : Nat) {den : Nat} (h : 0 < den) :
    |(num : ℚ) / den - roundHalfEven num den| ≤ 1 / 2 ∧
      (|(num : ℚ) / den - roundHalfEven num den| = 1 / 2 → roundHalfEven num den % 2 = 0) := by
  have hDen : (0 : ℚ) < den := by exact_mod_cast h
  have hPart : (0 : ℚ) ≤ (num % den : Nat) / den := by positivity
  rw [cast_div_eq num h, roundHalfEven]
  split
  · rename_i hBelow
    have hLess : ((num % den : Nat) : ℚ) / den < 1 / 2 := by
      rw [div_lt_div_iff₀ hDen (by norm_num)]
      exact_mod_cast (show num % den * 2 < 1 * den by omega)
    rw [add_sub_cancel_left, abs_of_nonneg hPart]
    exact ⟨hLess.le, fun hHalf => absurd hHalf hLess.ne⟩
  · split
    · rename_i hAbove
      have hMore : 1 / 2 < ((num % den : Nat) : ℚ) / den := by
        rw [div_lt_div_iff₀ (by norm_num) hDen]
        exact_mod_cast (show 1 * den < num % den * 2 by omega)
      have hLess : ((num % den : Nat) : ℚ) / den < 1 := by
        rw [div_lt_one hDen]
        exact_mod_cast Nat.mod_lt num h
      rw [abs_sub_next hLess]
      exact ⟨by linarith, fun hHalf => by linarith⟩
    · have hHalf : ((num % den : Nat) : ℚ) / den = 1 / 2 := by
        rw [div_eq_div_iff hDen.ne' (by norm_num)]
        exact_mod_cast (show num % den * 2 = 1 * den by omega)
      have hSize : |(1 / 2 : ℚ)| = 1 / 2 := abs_of_pos (by norm_num)
      rw [hHalf]
      rcases Nat.mod_two_eq_zero_or_one (num / den) with hEven | hOdd
      · rw [hEven, Nat.add_zero, add_sub_cancel_left]
        exact ⟨hSize.le, fun _ => hEven⟩
      · have hNext : |((num / den : Nat) : ℚ) + 1 / 2 - (num / den + 1 : Nat)| = 1 / 2 := by
          rw [abs_sub_next (by norm_num)]
          norm_num
        rw [hOdd, hNext]
        exact ⟨le_rfl, fun _ => by omega⟩

/-- A whole number that is half way off at most is nearest; half way off if another is as near. -/
theorem abs_sub_le_of_half {x : ℚ} {m : Nat} (h : |x - m| ≤ 1 / 2) (n : Nat) :
    |x - m| ≤ |x - n| ∧ (n ≠ m → |x - n| = |x - m| → |x - m| = 1 / 2) := by
  rcases eq_or_ne n m with rfl | hNe
  · exact ⟨le_rfl, fun hSelf => absurd rfl hSelf⟩
  · have hApart : (1 : ℚ) ≤ |(m : ℚ) - n| := by
      have hNonzero : (m : ℤ) - n ≠ 0 := sub_ne_zero.mpr (by exact_mod_cast hNe.symm)
      have hInt : (1 : ℤ) ≤ |(m : ℤ) - n| := Int.one_le_abs hNonzero
      exact_mod_cast hInt
    have hTriangle : |(m : ℚ) - n| ≤ |x - n| + |x - m| := by
      calc |(m : ℚ) - n| = |(x - n) - (x - m)| := by rw [sub_sub_sub_cancel_left]
        _ ≤ |x - n| + |x - m| := abs_sub _ _
    exact ⟨by linarith, fun _ hSame => by linarith⟩

namespace Rank

variable {r : Rank}

theorem parts (r : Rank) :
    r.significand < 2 * binade ∧ (r.shift = 0 ∨ binade ≤ r.significand) := by
  have hBinade : 0 < binade := by decide
  by_cases hLow : r.val < binade
  · rw [significand, if_pos hLow, shift, Nat.div_eq_of_lt hLow]
    exact ⟨by omega, .inl rfl⟩
  · have hMod := Nat.mod_lt r.val hBinade
    rw [significand, if_neg hLow]
    exact ⟨by omega, .inr (Nat.le_add_right _ _)⟩

theorem parts_eq {shift m : Nat} (hVal : r.val = shift * binade + m)
    (hLow : shift = 0 ∨ binade ≤ m) (hHigh : m < 2 * binade) :
    r.shift = shift ∧ r.significand = m := by
  have hSum := r.shift_significand
  obtain ⟨hLess, hNormal⟩ := r.parts
  simp only [binade] at *
  omega

/-- A significand may be just too large, and belongs to the next binade then. -/
theorem units_of_parts {shift m : Nat} (hVal : r.val = shift * binade + m)
    (hLow : shift = 0 ∨ binade ≤ m) (hHigh : m ≤ 2 * binade) : r.units = m * 2 ^ shift := by
  rcases Nat.lt_or_eq_of_le hHigh with hLess | rfl
  · obtain ⟨hShift, hSignificand⟩ := parts_eq hVal hLow hLess
    rw [units, hShift, hSignificand, Nat.pow_eq]
  · have hNext : r.val = (shift + 1) * binade + binade := by rw [hVal]; ring
    obtain ⟨hShift, hSignificand⟩ := parts_eq hNext (.inr (Nat.le_refl _)) (by decide)
    rw [units, hShift, hSignificand, Nat.pow_eq]
    ring

theorem units_eq (r : Rank) : r.units = r.significand * 2 ^ r.shift := by
  rw [units, Nat.pow_eq]

/-- All units are multiples of a power of two, but for those below the binade it belongs to. -/
theorem units_cases (r : Rank) (shift : Nat) :
    (∃ n, r.units = n * 2 ^ shift) ∨ 0 < shift ∧ r.units < binade * 2 ^ shift := by
  rcases Nat.lt_or_ge r.shift shift with hLess | hGe
  · right
    refine ⟨by omega, ?_⟩
    calc r.units = r.significand * 2 ^ r.shift := r.units_eq
      _ < 2 * binade * 2 ^ r.shift := Nat.mul_lt_mul_of_pos_right r.parts.1 (Nat.two_pow_pos _)
      _ = binade * 2 ^ (r.shift + 1) := by ring
      _ ≤ binade * 2 ^ shift := Nat.mul_le_mul_left _ (Nat.pow_le_pow_right (by decide) hLess)
  · left
    refine ⟨r.significand * 2 ^ (r.shift - shift), ?_⟩
    rw [units_eq, Nat.mul_assoc, ← Nat.pow_add, Nat.sub_add_cancel hGe]

theorem units_lt_of_lt {s : Rank} (h : r < s) : r.units < s.units := by
  have hVal : r.val < s.val := h
  have hSum := r.shift_significand
  have hSumNext := s.shift_significand
  obtain ⟨hLess, hNormal⟩ := r.parts
  obtain ⟨hLessNext, hNormalNext⟩ := s.parts
  have hShift : r.shift ≤ s.shift := by
    simp only [binade] at *
    omega
  rcases Nat.lt_or_eq_of_le hShift with hBelow | hSame
  · have hHigh : binade ≤ s.significand := hNormalNext.resolve_left (by omega)
    calc r.units = r.significand * 2 ^ r.shift := r.units_eq
      _ < 2 * binade * 2 ^ r.shift := Nat.mul_lt_mul_of_pos_right hLess (Nat.two_pow_pos _)
      _ = binade * 2 ^ (r.shift + 1) := by ring
      _ ≤ binade * 2 ^ s.shift := Nat.mul_le_mul_left _ (Nat.pow_le_pow_right (by decide) hBelow)
      _ ≤ s.significand * 2 ^ s.shift := Nat.mul_le_mul_right _ hHigh
      _ = s.units := s.units_eq.symm
  · have hSignificand : r.significand < s.significand := by
      rw [hSame] at hSum
      omega
    rw [units_eq, units_eq, hSame]
    exact Nat.mul_lt_mul_of_pos_right hSignificand (Nat.two_pow_pos _)

theorem units_ne {s : Rank} (h : r ≠ s) : r.units ≠ s.units := by
  rcases lt_or_gt_of_ne h with hLess | hLess
  · exact (units_lt_of_lt hLess).ne
  · exact (units_lt_of_lt hLess).ne'

theorem units_le_infinity (r : Rank) : r.units ≤ infinity.units := by
  rcases eq_or_ne r infinity with rfl | hNe
  · exact Nat.le_refl _
  · exact (units_lt_of_lt (lt_of_le_of_ne (Fin.le_last r) hNe)).le

/-- The binary places of the least magnitude above zero. -/
def places : Nat := 1074

/-- The number that a rank stands for; infinity stands for the power of two that comes next. -/
def value (r : Rank) : ℚ := r.units / 2 ^ places

/-- A number is rounded to the nearest rank, and of two that are as near to the even one. -/
structure Rounds (q : ℚ) (r : Rank) : Prop where
  nearest : ∀ other : Rank, |q - r.value| ≤ |q - other.value|
  even : ∀ other ≠ r, |q - other.value| = |q - r.value| → r.val % 2 = 0

theorem value_lt_of_lt {s : Rank} (h : r < s) : r.value < s.value := by
  have hUnits : (r.units : ℚ) < s.units := by exact_mod_cast units_lt_of_lt h
  exact div_lt_div_of_pos_right hUnits (by positivity)

theorem Rounds.not_lt {q : ℚ} {s : Rank} (h : Rounds q r) (hOther : Rounds q s) : ¬ r < s := by
  intro hLess
  have hVal : r.val < s.val := hLess
  have hSame : |q - s.value| = |q - r.value| := le_antisymm (hOther.nearest r) (h.nearest s)
  have hEven := h.even s hLess.ne' hSame
  have hEvenOther := hOther.even r hLess.ne hSame.symm
  -- an odd rank lies between two even ones, and nearer
  let mid : Rank := ⟨r.val + 1, by have hBound := s.isLt; omega⟩
  have hAbove : r.value < mid.value := value_lt_of_lt (Nat.lt_succ_self r.val)
  have hBelow : mid.value < s.value := value_lt_of_lt (show r.val + 1 < s.val by omega)
  have hNearest := h.nearest mid
  rcases abs_eq_abs.mp hSame with hEq | hEq
  · linarith
  · rw [abs_of_nonneg (by linarith : 0 ≤ q - r.value)] at hNearest
    rcases le_abs.mp hNearest with hFar | hFar <;> linarith

theorem Rounds.unique {q : ℚ} {s : Rank} (h : Rounds q r) (hOther : Rounds q s) : r = s := by
  rcases lt_trichotomy r s with hLess | hSame | hLess
  · exact absurd hLess (h.not_lt hOther)
  · exact hSame
  · exact absurd hLess (hOther.not_lt h)

theorem rounds_of_units {x : ℚ} (hNearest : ∀ other : Rank, |x - r.units| ≤ |x - other.units|)
    (hEven : ∀ other ≠ r, |x - other.units| = |x - r.units| → r.val % 2 = 0) :
    Rounds (x / 2 ^ places) r := by
  have hScale : (0 : ℚ) < 2 ^ places := by positivity
  have hDistance : ∀ other : Rank,
      |x / 2 ^ places - other.value| = |x - other.units| / 2 ^ places := by
    intro other
    rw [value, ← sub_div, abs_div, abs_of_pos hScale]
  constructor
  · intro other
    rw [hDistance, hDistance]
    exact div_le_div_of_nonneg_right (hNearest other) hScale.le
  · intro other hNe hSame
    rw [hDistance, hDistance, div_left_inj' hScale.ne'] at hSame
    exact hEven other hNe hSame

/-- From infinity on, all numbers are rounded to it. -/
theorem rounds_infinity {x : ℚ} (h : infinity.units ≤ x) : Rounds (x / 2 ^ places) infinity := by
  have hBelow : ∀ other : Rank, (other.units : ℚ) ≤ infinity.units := fun other => by
    exact_mod_cast other.units_le_infinity
  have hDistance : ∀ other : Rank, |x - other.units| = x - other.units := fun other =>
    abs_of_nonneg (sub_nonneg.mpr ((hBelow other).trans h))
  apply rounds_of_units
  · intro other
    rw [hDistance, hDistance]
    have hOther := hBelow other
    linarith
  · intro other hNe hSame
    rw [hDistance, hDistance, sub_right_inj] at hSame
    exact absurd (by exact_mod_cast hSame) (units_ne hNe)

/-- A number nearer to zero than to the least rank above is rounded to zero. -/
theorem rounds_zero {x : ℚ} (hNonneg : 0 ≤ x) (h : x < 1 / 2) :
    Rounds (x / 2 ^ places) (ofPlace 0) := by
  have hUnits : (ofPlace 0).units = 0 := by
    have hZero : (ofPlace 0).units = 0 * 2 ^ 0 := units_of_parts rfl (.inl rfl) (by decide)
    rw [hZero, Nat.zero_mul]
  have hDistance : |x - (ofPlace 0).units| = x := by
    rw [hUnits, Nat.cast_zero, sub_zero, abs_of_nonneg hNonneg]
  have hOther : ∀ other ≠ ofPlace 0, x < |x - other.units| := by
    intro other hNe
    have hOne : (1 : ℚ) ≤ other.units := by
      have hPos := (units_ne hNe.symm).lt_or_gt.resolve_right (by omega)
      exact_mod_cast (show 1 ≤ other.units by omega)
    rw [lt_abs]
    right
    linarith
  apply rounds_of_units
  · intro other
    rcases eq_or_ne other (ofPlace 0) with rfl | hNe
    · exact le_rfl
    · exact hDistance.trans_le (hOther other hNe).le
  · intro other hNe hSame
    exact absurd (hSame.trans hDistance) (hOther other hNe).ne'

/-- Rounded to a multiple of a power of two, a number is rounded to the rank of that multiple. -/
theorem rounds_of_parts {x : ℚ} {shift m : Nat} (hVal : r.val = shift * binade + m)
    (hLow : shift = 0 ∨ binade ≤ m) (hHigh : m ≤ 2 * binade)
    (hBinade : 0 < shift → (binade * 2 ^ shift : ℚ) ≤ x) (hHalf : |x / 2 ^ shift - m| ≤ 1 / 2)
    (hEven : |x / 2 ^ shift - m| = 1 / 2 → m % 2 = 0) : Rounds (x / 2 ^ places) r := by
  have hStep : (0 : ℚ) < 2 ^ shift := by positivity
  have hScaled : ∀ n : Nat, |x - n * 2 ^ shift| = |x / 2 ^ shift - n| * 2 ^ shift := by
    intro n
    have hParts : x - n * 2 ^ shift = (x / 2 ^ shift - n) * 2 ^ shift := by field_simp
    rw [hParts, abs_mul, abs_of_pos hStep]
  have hUnits : (r.units : ℚ) = m * 2 ^ shift := by
    exact_mod_cast units_of_parts hVal hLow hHigh
  have hMultiple : ∀ n : Nat, |x - r.units| ≤ |x - n * 2 ^ shift| := by
    intro n
    rw [hUnits, hScaled, hScaled]
    exact mul_le_mul_of_nonneg_right (abs_sub_le_of_half hHalf n).1 hStep.le
  have hLess : ∀ other : Rank, 0 < shift → other.units < binade * 2 ^ shift →
      |x - r.units| < |x - other.units| := by
    intro other hPos hBelow
    have hUnder : (other.units : ℚ) < binade * 2 ^ shift := by exact_mod_cast hBelow
    have hOver := hBinade hPos
    calc |x - r.units| ≤ |x - binade * 2 ^ shift| := hMultiple binade
      _ = x - binade * 2 ^ shift := abs_of_nonneg (by linarith)
      _ < x - other.units := by linarith
      _ ≤ |x - other.units| := le_abs_self _
  have hPlace : r.val % 2 = m % 2 := by
    rw [hVal]
    simp only [binade]
    omega
  apply rounds_of_units
  · intro other
    rcases other.units_cases shift with ⟨n, hn⟩ | ⟨hPos, hBelow⟩
    · have hCast : (other.units : ℚ) = n * 2 ^ shift := by exact_mod_cast hn
      rw [hCast]
      exact hMultiple n
    · exact (hLess other hPos hBelow).le
  · intro other hNe hSame
    rcases other.units_cases shift with ⟨n, hn⟩ | ⟨hPos, hBelow⟩
    · have hCast : (other.units : ℚ) = n * 2 ^ shift := by exact_mod_cast hn
      have hApart : n ≠ m := by
        rintro rfl
        exact units_ne hNe (by exact_mod_cast hCast.trans hUnits.symm)
      rw [hCast, hUnits, hScaled, hScaled, mul_left_inj' hStep.ne'] at hSame
      rw [hPlace]
      exact hEven ((abs_sub_le_of_half hHalf n).2 hApart hSame)
    · exact absurd hSame (hLess other hPos hBelow).ne'

/-- A number in units, and the power of two to a multiple of which it is rounded: it has 53 binary
digits there at most, and as many if not all are kept. -/
theorem shift_bounds (n : Nat) :
    n < 2 * binade * 2 ^ (n.log2 - 52) ∧
      (0 < n.log2 - 52 → binade * 2 ^ (n.log2 - 52) ≤ n) := by
  constructor
  · have hPower : 2 * binade * 2 ^ (n.log2 - 52) = 2 ^ (53 + (n.log2 - 52)) := by
      rw [binade_eq, ← Nat.pow_succ', ← Nat.pow_add]
    rw [hPower]
    exact Nat.lt_log2_self.trans_le (Nat.pow_le_pow_right (by decide) (by omega))
  · intro hPos
    have hNe : n ≠ 0 := by
      rintro rfl
      exact absurd hPos (by decide)
    have hPower : binade * 2 ^ (n.log2 - 52) = 2 ^ n.log2 := by
      rw [binade_eq, ← Nat.pow_add, Nat.add_sub_of_le (by omega)]
    rw [hPower]
    exact Nat.log2_self_le hNe

theorem roundHalfEven_bounds (num den : Nat) :
    num / den ≤ roundHalfEven num den ∧ roundHalfEven num den ≤ num / den + 1 := by
  rw [roundHalfEven]
  split
  · omega
  · split <;> omega

theorem units_infinity {shift : Nat} (h : shift = 2046) :
    infinity.units = binade * 2 ^ shift := by
  have hVal : infinity.val = shift * binade + binade := by
    rw [h]
    rfl
  exact units_of_parts hVal (.inr (Nat.le_refl _)) (by decide)

theorem units_infinity_le {shift : Nat} (h : 2046 ≤ shift) :
    infinity.units ≤ binade * 2 ^ shift := by
  have hPower : ∀ k : Nat, k ≤ shift → binade * 2 ^ k ≤ binade * 2 ^ shift := fun k hk =>
    Nat.mul_le_mul_left binade (Nat.pow_le_pow_right (by decide) hk)
  exact (units_infinity rfl).trans_le (hPower 2046 h)

theorem le_shift_of_over {shift m : Nat} (h : infinityRank < shift * binade + m)
    (hHigh : m ≤ 2 * binade) : 2046 ≤ shift := by
  simp only [infinityRank, binade] at *
  omega

theorem rounds_ofPlace {x : ℚ} {shift m : Nat} (hLow : shift = 0 ∨ binade ≤ m)
    (hHigh : m ≤ 2 * binade) (hBinade : 0 < shift → (binade * 2 ^ shift : ℚ) ≤ x)
    (hHalf : |x / 2 ^ shift - m| ≤ 1 / 2) (hEven : |x / 2 ^ shift - m| = 1 / 2 → m % 2 = 0) :
    Rounds (x / 2 ^ places) (ofPlace (shift * binade + m)) := by
  rcases lt_trichotomy (shift * binade + m) infinityRank with hFinite | hEdge | hOver
  · rw [ofPlace, dif_pos hFinite]
    exact rounds_of_parts rfl hLow hHigh hBinade hHalf hEven
  · rw [ofPlace, dif_neg hEdge.not_lt]
    exact rounds_of_parts hEdge.symm hLow hHigh hBinade hHalf hEven
  · rw [ofPlace, dif_neg hOver.not_gt]
    have hShift := le_shift_of_over hOver hHigh
    refine rounds_infinity (le_trans ?_ (hBinade (Nat.zero_lt_of_lt hShift)))
    exact_mod_cast units_infinity_le hShift

theorem rounds_scaled (scaled : Nat) {den : Nat} (h : 0 < den) :
    Rounds ((scaled : ℚ) / den / 2 ^ places)
      (ofPlace (((scaled / den).log2 - 52) * binade +
        roundHalfEven scaled (den * 2 ^ ((scaled / den).log2 - 52)))) := by
  obtain ⟨hUpper, hLower⟩ := shift_bounds (scaled / den)
  generalize (scaled / den).log2 - 52 = shift at *
  have hDen : (0 : ℚ) < den := by exact_mod_cast h
  have hStep : 0 < den * 2 ^ shift := Nat.mul_pos h (Nat.two_pow_pos _)
  have hQuotient : scaled / (den * 2 ^ shift) = scaled / den / 2 ^ shift :=
    (Nat.div_div_eq_div_mul ..).symm
  obtain ⟨hFloor, hCeil⟩ := roundHalfEven_bounds scaled (den * 2 ^ shift)
  obtain ⟨hHalf, hEven⟩ := abs_sub_roundHalfEven scaled hStep
  have hScaled : (scaled : ℚ) / den / 2 ^ shift = scaled / (den * 2 ^ shift : Nat) := by
    rw [div_div]
    push_cast
    rfl
  rw [← hScaled] at hHalf hEven
  rw [hQuotient] at hFloor hCeil
  have hHigh := hCeil.trans
    (Nat.succ_le_of_lt ((Nat.div_lt_iff_lt_mul (Nat.two_pow_pos _)).mpr hUpper))
  refine rounds_ofPlace ?_ hHigh ?_ hHalf hEven
  · rcases Nat.eq_zero_or_pos shift with hZero | hPos
    · exact .inl hZero
    · have hMany := (Nat.le_div_iff_mul_le (Nat.two_pow_pos _)).mpr (hLower hPos)
      exact .inr (hMany.trans hFloor)
  · intro hPos
    rw [le_div_iff₀ hDen]
    have hMany := (Nat.le_div_iff_mul_le h).mp (hLower hPos)
    exact_mod_cast hMany

theorem rounds_nearest (num : Nat) {den : Nat} (h : 0 < den) :
    Rounds ((num : ℚ) / den) (nearest num den) := by
  have hScale : ∀ k : Nat, ((num * Nat.pow 2 k : Nat) : ℚ) / den / 2 ^ k = num / den := by
    intro k
    rw [Nat.pow_eq, Nat.cast_mul, Nat.cast_pow, Nat.cast_ofNat]
    field_simp
  have hRounds := rounds_scaled (num * Nat.pow 2 places) h
  rw [hScale] at hRounds
  rw [nearest]
  exact hRounds

theorem rounds_infinity_of_le {q : ℚ} (h : 2 ^ 1024 ≤ q) : Rounds q infinity := by
  have hScale : (0 : ℚ) < 2 ^ places := by positivity
  have hUnits : infinity.units = 2 ^ 1024 * 2 ^ places := by
    have hShift : places + 972 = 2046 := rfl
    rw [units_infinity hShift, binade_eq, ← Nat.pow_add, ← Nat.pow_add, Nat.add_left_comm,
      Nat.add_comm places]
  have hLe : infinity.units ≤ q * 2 ^ places := by
    rw [hUnits, Nat.cast_mul, Nat.cast_pow, Nat.cast_pow, Nat.cast_ofNat]
    exact mul_le_mul_of_nonneg_right h hScale.le
  have hRounds := rounds_infinity hLe
  rwa [mul_div_cancel_right₀ q hScale.ne'] at hRounds

theorem scaled_lt_half {num den k : Nat} (hDen : 0 < den) (h : num * 2 ^ k * 2 < den) :
    (num : ℚ) / den * 2 ^ k < 1 / 2 := by
  have hPos : (0 : ℚ) < den := by exact_mod_cast hDen
  rw [div_mul_eq_mul_div, div_lt_div_iff₀ hPos (by norm_num), one_mul]
  exact_mod_cast h

theorem rounds_zero_of_lt {num den : Nat} (hDen : 0 < den) (h : num * 2 ^ places * 2 < den) :
    Rounds ((num : ℚ) / den) (ofPlace 0) := by
  have hScale : (0 : ℚ) < 2 ^ places := by positivity
  have hNonneg : (0 : ℚ) ≤ num / den := div_nonneg num.cast_nonneg den.cast_nonneg
  have hRounds := rounds_zero (mul_nonneg hNonneg hScale.le) (scaled_lt_half hDen h)
  rwa [mul_div_cancel_right₀ _ hScale.ne'] at hRounds

end Rank

namespace Decimal

/-- The number that a decimal stands for. -/
def value (d : Decimal) : ℚ := d.coefficient * 10 ^ d.exponent

theorem value_eq (d : Decimal) :
    d.value = (d.coefficient * 10 ^ d.exponent.toNat : Nat) / (10 ^ (-d.exponent).toNat : Nat) := by
  have hExponent : d.exponent = (d.exponent.toNat : Int) - ((-d.exponent).toNat : Int) := by omega
  rw [value, hExponent, zpow_sub₀ (by norm_num), zpow_natCast, zpow_natCast]
  simp only [← hExponent]
  push_cast
  ring

/-- From 10^311 on a decimal is beyond all finite ranks. -/
theorem rounds_huge {d : Decimal} (hNe : d.coefficient ≠ 0) (h : 310 < d.exponent) :
    Rank.Rounds d.value .infinity := by
  apply Rank.rounds_infinity_of_le
  have hNat : 2 ^ 1024 ≤ d.coefficient * 10 ^ d.exponent.toNat := by
    calc 2 ^ 1024 ≤ 10 ^ 311 := by decide +kernel
      _ ≤ 10 ^ d.exponent.toNat := Nat.pow_le_pow_right (by decide) (by omega)
      _ ≤ d.coefficient * 10 ^ d.exponent.toNat :=
        Nat.le_mul_of_pos_left _ (Nat.pos_of_ne_zero hNe)
  have hWhole : (-d.exponent).toNat = 0 := by omega
  rw [value_eq, hWhole, Nat.pow_zero, Nat.cast_one, div_one]
  exact_mod_cast hNat

/-- Below 2^-1199 a decimal is nearer to zero than to any other rank. -/
theorem rounds_tiny {d : Decimal} (h : (d.coefficient.log2 : Int) + 1200 < 3 * -d.exponent) :
    Rank.Rounds d.value (.ofPlace 0) := by
  have hPlaces : d.coefficient.log2 + 1 + Rank.places + 1 ≤ 3 * (-d.exponent).toNat := by
    rw [Rank.places]
    omega
  have hNat : d.coefficient * 2 ^ Rank.places * 2 < 10 ^ (-d.exponent).toNat := by
    calc d.coefficient * 2 ^ Rank.places * 2 < 2 ^ (d.coefficient.log2 + 1) * 2 ^ Rank.places * 2 :=
          Nat.mul_lt_mul_of_pos_right
            (Nat.mul_lt_mul_of_pos_right Nat.lt_log2_self (Nat.two_pow_pos _)) (by decide)
      _ = 2 ^ (d.coefficient.log2 + 1 + Rank.places + 1) := by
          rw [← Nat.pow_add, ← Nat.pow_succ]
      _ ≤ 2 ^ (3 * (-d.exponent).toNat) := Nat.pow_le_pow_right (by decide) hPlaces
      _ = 8 ^ (-d.exponent).toNat := Nat.pow_mul ..
      _ ≤ 10 ^ (-d.exponent).toNat := Nat.pow_le_pow_left (by decide) _
  have hNone : d.exponent.toNat = 0 := by omega
  rw [value_eq, hNone, Nat.pow_zero, Nat.mul_one]
  exact Rank.rounds_zero_of_lt (Nat.pow_pos (by decide)) hNat

theorem rounds_rank (d : Decimal) : Rank.Rounds d.value d.rank := by
  rw [rank]
  split
  · rename_i hZero
    have hNone : 0 * 2 ^ Rank.places * 2 < 1 := by
      rw [Nat.zero_mul, Nat.zero_mul]
      exact Nat.one_pos
    have hValue : d.value = (0 : Nat) / (1 : Nat) := by rw [value, hZero]; simp
    rw [hValue]
    exact Rank.rounds_zero_of_lt Nat.one_pos hNone
  · rename_i hNe
    split
    · rename_i hHuge
      exact rounds_huge hNe hHuge
    · split
      · rename_i hTiny
        exact rounds_tiny hTiny
      · rw [value_eq]
        exact Rank.rounds_nearest _ (Nat.pow_pos (by decide))

end Decimal
end Keyspace
