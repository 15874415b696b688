import Mathlib.Algebra.Group.Nat.Defs
import Mathlib.Data.List.TakeWhile
import Keyspace.Score.Decimal
import Keyspace.Proofs.Text.Numeral

/-! # Decimals: what is written without a power of ten reads back as it was -/
namespace Keyspace.Decimal
open Text
set_option autoImplicit false

/-- A power of ten: a letter and a numeral, or nothing. -/
inductive Power : List Char → Int → Prop
  | absent : Power [] 0
  | given {mark : Char} {cs : List Char} {exponent : Int} (hMark : mark = 'e' ∨ mark = 'E')
      (hNumeral : Spells cs exponent) : Power (mark :: cs) exponent

/-- Digits, all before a point or not, and a power of ten. -/
inductive Spelled : List Char → Decimal → Prop
  | whole {digits tail : List Char} {exponent : Int} (hNe : digits ≠ [])
      (hDigits : ∀ c ∈ digits, c.isDigit = true) (hPower : Power tail exponent) :
      Spelled (digits ++ tail) ⟨Nat.ofDigitChars 10 digits 0, exponent⟩
  | point {digits fraction tail : List Char} {exponent : Int} (hNe : digits ++ fraction ≠ [])
      (hDigits : ∀ c ∈ digits ++ fraction, c.isDigit = true) (hPower : Power tail exponent) :
      Spelled (digits ++ '.' :: (fraction ++ tail))
        ⟨Nat.ofDigitChars 10 (digits ++ fraction) 0, exponent - fraction.length⟩

theorem readExponent_eq_some_iff {cs : List Char} {exponent : Int} :
    readExponent cs = some exponent ↔ Power cs exponent := by
  constructor
  · intro h
    rw [readExponent.eq_def] at h
    split at h
    · cases h
      exact .absent
    · exact .given (.inl rfl) (readSigned_eq_some_iff.mp h)
    · exact .given (.inr rfl) (readSigned_eq_some_iff.mp h)
    · cases h
  · intro h
    cases h with
    | absent => rfl
    | given hMark hNumeral =>
      rcases hMark with rfl | rfl <;> exact readSigned_eq_some_iff.mpr hNumeral

theorem Power.head_not_digit {cs : List Char} {exponent : Int} (h : Power cs exponent) :
    ∀ c ∈ cs.head?, c.isDigit = false ∧ c ≠ '.' := by
  cases h with
  | absent => exact fun c hc => by cases hc
  | given hMark _ =>
    intro c hc
    cases hc
    rcases hMark with rfl | rfl <;> decide

theorem takeWhile_dropWhile_digits {digits rest : List Char}
    (hDigits : ∀ c ∈ digits, c.isDigit = true) (hRest : ∀ c ∈ rest.head?, c.isDigit = false) :
    (digits ++ rest).takeWhile Char.isDigit = digits ∧
      (digits ++ rest).dropWhile Char.isDigit = rest := by
  rw [List.takeWhile_append_of_pos hDigits, List.dropWhile_append_of_pos hDigits]
  cases rest with
  | nil => simp
  | cons c rest =>
    have hFirst : ¬ c.isDigit = true := by simp [hRest c rfl]
    rw [List.takeWhile_cons_of_neg hFirst, List.dropWhile_cons_of_neg hFirst, List.append_nil]
    exact ⟨rfl, rfl⟩

theorem exists_digits (cs : List Char) : ∃ digits rest, cs = digits ++ rest ∧
    cs.takeWhile Char.isDigit = digits ∧ cs.dropWhile Char.isDigit = rest ∧
      ∀ c ∈ digits, c.isDigit = true :=
  ⟨_, _, List.takeWhile_append_dropWhile.symm, rfl, rfl, fun _ => List.mem_takeWhile_imp⟩

theorem spelled_of_read {cs : List Char} {d : Decimal} (h : read cs = some d) : Spelled cs d := by
  obtain ⟨digits, rest, rfl, hTake, hDrop, hDigits⟩ := exists_digits cs
  rw [read, hTake, hDrop] at h
  split at h
  rename_i fraction tail hParts
  split at h
  · rename_i coefficient exponent hRead hExponent
    obtain ⟨hNe, hAll, rfl⟩ := readDigits_eq_some_iff.mp hRead
    have hPower := readExponent_eq_some_iff.mp hExponent
    cases h
    split at hParts
    · rename_i places
      obtain ⟨more, last, rfl, hMore, hLast, -⟩ := exists_digits places
      rw [hMore, hLast] at hParts
      cases hParts
      exact .point hNe hAll hPower
    · cases hParts
      rw [List.append_nil] at hNe hAll ⊢
      rw [List.length_nil, Int.natCast_zero, Int.sub_zero]
      exact .whole hNe hAll hPower
  · cases h

theorem read_of_spelled {cs : List Char} {d : Decimal} (h : Spelled cs d) : read cs = some d := by
  cases h with
  | @whole digits tail exponent hNe hDigits hPower =>
    have hRead := readDigits_eq_some_iff.mpr ⟨hNe, hDigits, rfl⟩
    have hExponent := readExponent_eq_some_iff.mpr hPower
    obtain ⟨hTake, hDrop⟩ :=
      takeWhile_dropWhile_digits hDigits fun c hc => (hPower.head_not_digit c hc).1
    have hNoPoint : ∀ rest, tail ≠ '.' :: rest := by
      rintro rest rfl
      exact (hPower.head_not_digit '.' rfl).2 rfl
    rw [read, hTake, hDrop]
    simp [hRead, hExponent]
  | @point digits fraction tail exponent hNe hDigits hPower =>
    have hRead := readDigits_eq_some_iff.mpr ⟨hNe, hDigits, rfl⟩
    have hExponent := readExponent_eq_some_iff.mpr hPower
    obtain ⟨hWhole, hFraction⟩ := List.forall_mem_append.mp hDigits
    have hPoint : ∀ c ∈ ('.' :: (fraction ++ tail)).head?, c.isDigit = false := by simp
    obtain ⟨hTake, hDrop⟩ := takeWhile_dropWhile_digits hWhole hPoint
    obtain ⟨hTakeMore, hDropMore⟩ :=
      takeWhile_dropWhile_digits hFraction fun c hc => (hPower.head_not_digit c hc).1
    rw [read, hTake, hDrop]
    simp [hRead, hExponent, hTakeMore, hDropMore]

theorem read_eq_some_iff {cs : List Char} {d : Decimal} : read cs = some d ↔ Spelled cs d :=
  ⟨spelled_of_read, read_of_spelled⟩

def fraction (coefficient places : Nat) : List Char :=
  (Nat.toDigits 10 (coefficient % 10 ^ places)).leftpad places '0'

theorem isDigit_of_mem_fraction {coefficient places : Nat} {c : Char}
    (h : c ∈ fraction coefficient places) : c.isDigit = true := by
  rcases List.mem_append.mp h with h | h
  · rw [List.eq_of_mem_replicate h]
    rfl
  · exact isDigit_of_mem_toDigits h

theorem length_fraction (coefficient : Nat) {places : Nat} (h : 0 < places) :
    (fraction coefficient places).length = places := by
  have hLt : coefficient % 10 ^ places < 10 ^ places := Nat.mod_lt _ (Nat.pow_pos (by decide))
  have hLength := (Nat.length_toDigits_le_iff (by decide) h).mpr hLt
  rw [fraction, List.length_leftpad, Nat.max_eq_left hLength]

theorem ofDigitChars_fraction (coefficient : Nat) {places : Nat} (h : 0 < places) (whole : Nat) :
    Nat.ofDigitChars 10 (fraction coefficient places) whole =
      10 ^ places * whole + coefficient % 10 ^ places := by
  rw [Nat.ofDigitChars_eq_ofDigitChars_zero, length_fraction coefficient h, fraction, List.leftpad,
    Nat.ofDigitChars_append, Nat.ofDigitChars_replicate_zero, Nat.mul_zero,
    Nat.ofDigitChars_ten_toDigits]

theorem chars_eq (coefficient places : Nat) :
    chars ⟨coefficient, -places⟩ = Nat.toDigits 10 (coefficient / 10 ^ places) ++
      if places = 0 then [] else '.' :: fraction coefficient places := by
  simp only [chars, fraction, Int.neg_neg, Int.toNat_natCast, Int.toNat_neg_natCast, Nat.pow_eq,
    Nat.pow_zero, Nat.mul_one]
  split <;> simp

/-- What is written without a power of ten is the decimal that it was written for. -/
theorem spelled_chars (coefficient places : Nat) :
    Spelled (chars ⟨coefficient, -places⟩) ⟨coefficient, -places⟩ := by
  have hNe : Nat.toDigits 10 (coefficient / 10 ^ places) ≠ [] := Nat.toDigits_ne_nil
  have hWhole : ∀ c ∈ Nat.toDigits 10 (coefficient / 10 ^ places), c.isDigit = true := fun c hc =>
    isDigit_of_mem_toDigits hc
  rw [chars_eq]
  by_cases hPlaces : places = 0
  · have hSpelled := Spelled.whole hNe hWhole .absent
    rw [Nat.ofDigitChars_ten_toDigits] at hSpelled
    subst hPlaces
    simpa using hSpelled
  · have hPos : 0 < places := Nat.pos_of_ne_zero hPlaces
    have hFraction : ∀ c ∈ fraction coefficient places, c.isDigit = true := fun c =>
      isDigit_of_mem_fraction
    have hSpelled := Spelled.point (List.append_ne_nil_of_left_ne_nil hNe _)
      (List.forall_mem_append.mpr ⟨hWhole, hFraction⟩) .absent
    rw [Nat.ofDigitChars_append, Nat.ofDigitChars_ten_toDigits, ofDigitChars_fraction _ hPos,
      length_fraction _ hPos, Nat.div_add_mod, List.append_nil, Int.zero_sub] at hSpelled
    rw [if_neg hPlaces]
    exact hSpelled

end Keyspace.Decimal
