import Mathlib.Data.String.Basic
import Keyspace.Text.Utf8

/-! # UTF-8: the order of texts is that of their bytes -/
namespace Keyspace.Text
set_option autoImplicit false

theorem utf8_eq_flatMap (s : String) : utf8 s = s.toList.flatMap String.utf8EncodeChar := by
  rw [utf8, ← String.utf8Encode_toList, List.utf8Encode, List.toList_data_toByteArray]

theorem digits_lt {n m : Nat} (h : n < m) :
    n / 262144 < m / 262144 ∨ n / 262144 = m / 262144 ∧
      (n / 4096 % 64 < m / 4096 % 64 ∨ n / 4096 % 64 = m / 4096 % 64 ∧
        (n / 64 % 64 < m / 64 % 64 ∨ n / 64 % 64 = m / 64 % 64 ∧ n % 64 < m % 64)) := by
  omega

/-- The encoding of the lesser of two characters is less at the first byte that differs. -/
theorem utf8EncodeChar_append_lt {c d : Char} (h : c < d) (rest other : Bytes) :
    String.utf8EncodeChar c ++ rest < String.utf8EncodeChar d ++ other := by
  have hLt : c.val.toNat < d.val.toNat := h
  have hMax : d.val.toNat < 0x110000 := by
    have hValid := d.valid
    simp only [UInt32.isValidChar, Nat.isValidChar] at hValid
    omega
  have hDigits := digits_lt hLt
  -- No byte of an encoding overflows.
  have hTail : ∀ n, (n % 64 + 128) % 2 ^ 8 = n % 64 + 128 := by omega
  have hLead : ∀ n, n < 0x110000 → (n / 262144 % 8 + 240) % 2 ^ 8 = n / 262144 + 240 := by omega
  have hLeadC := hLead _ (hLt.trans hMax)
  have hLeadD := hLead _ hMax
  simp only [String.utf8EncodeChar]
  split_ifs <;> simp only [List.cons_append, List.nil_append, List.cons_lt_cons_iff,
    UInt8.lt_iff_toNat_lt, ← UInt8.toNat_inj, UInt8.toNat_ofNat', hTail, hLeadC, hLeadD] <;> omega

theorem utf8EncodeChar_append_pos (c : Char) (rest : Bytes) :
    [] < String.utf8EncodeChar c ++ rest := by
  simp only [String.utf8EncodeChar]
  split_ifs <;> exact List.nil_lt_cons _ _

theorem flatMap_utf8EncodeChar_lt {s t : List Char} (h : s < t) :
    s.flatMap String.utf8EncodeChar < t.flatMap String.utf8EncodeChar := by
  induction h with
  | nil => exact utf8EncodeChar_append_pos _ _
  | rel hLt => exact utf8EncodeChar_append_lt hLt _ _
  | cons _ ih => exact List.append_left_lt ih

theorem utf8_lt_of_lt {s t : String} (h : s < t) : utf8 s < utf8 t := by
  rw [utf8_eq_flatMap, utf8_eq_flatMap]
  exact flatMap_utf8EncodeChar_lt (String.lt_iff_toList_lt.mp h)

theorem utf8_lt_utf8_iff {s t : String} : utf8 s < utf8 t ↔ s < t := by
  constructor
  · intro h
    rcases lt_trichotomy s t with hLt | rfl | hGt
    · exact hLt
    · exact absurd h (List.lt_irrefl _)
    · exact absurd h (List.lt_asymm (utf8_lt_of_lt hGt))
  · exact utf8_lt_of_lt

end Keyspace.Text
