import Mathlib.Data.List.Forall2

/-! # Letters: the same in upper case and in lower case -/
namespace Keyspace.Text
set_option autoImplicit false

/-- A letter from A to Z is the same as the one 32 places on. -/
inductive SameLetter : Char → Char → Prop
  | self (c : Char) : SameLetter c c
  | lower {c d : Char} (hFirst : 'A' ≤ c) (hLast : c ≤ 'Z') (h : d.toNat = c.toNat + 32) :
      SameLetter c d
  | upper {c d : Char} (hFirst : 'A' ≤ d) (hLast : d ≤ 'Z') (h : c.toNat = d.toNat + 32) :
      SameLetter c d

def SameLetters : List Char → List Char → Prop := List.Forall₂ SameLetter

theorem le_iff_toNat {c d : Char} : c ≤ d ↔ c.toNat ≤ d.toNat := UInt32.le_iff_toNat_le

theorem toNat_toLower (c : Char) :
    c.toLower.toNat = if 'A' ≤ c ∧ c ≤ 'Z' then c.toNat + 32 else c.toNat := by
  by_cases hUpper : 'A' ≤ c ∧ c ≤ 'Z'
  · have hLower : c.toLower.val = c.val + 32 := congrArg Char.val (dif_pos hUpper)
    have hLast : c.val.toNat ≤ 90 := le_iff_toNat.mp hUpper.2
    have hSmall : c.val.toNat + (32 : UInt32).toNat < 2 ^ 32 :=
      Nat.lt_of_le_of_lt (Nat.add_le_add_right hLast _) (by decide)
    rw [if_pos hUpper, Char.toNat, hLower, UInt32.toNat_add, Nat.mod_eq_of_lt hSmall]
    rfl
  · rw [if_neg hUpper]
    exact congrArg Char.toNat (dif_neg hUpper)

theorem sameLetter_iff {c d : Char} : SameLetter c d ↔ c.toLower = d.toLower := by
  have hFirst : 'A'.toNat = 65 := rfl
  have hLast : 'Z'.toNat = 90 := rfl
  constructor
  · intro h
    cases h with
    | self => rfl
    | lower hLow hHigh h | upper hLow hHigh h =>
      simp only [← Char.toNat_inj, toNat_toLower, le_iff_toNat] at *
      split_ifs <;> omega
  · intro h
    rw [← Char.toNat_inj, toNat_toLower, toNat_toLower] at h
    split at h
    · rename_i hUpper
      split at h
      · rw [Char.toNat_inj.mp (Nat.add_right_cancel h)]
        exact .self d
      · exact .lower hUpper.1 hUpper.2 h.symm
    · split at h
      · rename_i hUpper
        exact .upper hUpper.1 hUpper.2 h
      · rw [Char.toNat_inj.mp h]
        exact .self d

theorem sameLetters_iff {cs ds : List Char} :
    SameLetters cs ds ↔ cs.map Char.toLower = ds.map Char.toLower := by
  rw [← List.forall₂_eq_eq_eq, List.forall₂_map_left_iff, List.forall₂_map_right_iff]
  exact ⟨fun h => h.imp fun _ _ => sameLetter_iff.mp, fun h => h.imp fun _ _ => sameLetter_iff.mpr⟩

end Keyspace.Text
