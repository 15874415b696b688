import Mathlib.Algebra.Group.Nat.Defs
import Mathlib.Tactic.Common
import Keyspace.Text.Blank
import Keyspace.Text.Numeral

/-! # Numerals are words, and read back as the numbers they were written for -/
namespace Keyspace.Text
set_option autoImplicit false

theorem isDigit_of_mem_toDigits {n : Nat} {c : Char} (h : c ∈ Nat.toDigits 10 n) :
    c.isDigit = true :=
  Nat.isDigit_of_mem_toDigits (by decide) (by decide) h

theorem isSeparator_of_isDigit {c : Char} (h : c.isDigit = true) : isSeparator c = false := by
  apply Bool.eq_false_iff.mpr
  intro hSeparator
  simp only [isSeparator, Bool.or_eq_true, decide_eq_true_eq] at hSeparator
  rcases hSeparator with (((rfl | rfl) | rfl) | rfl) | rfl <;> exact absurd h (by decide)

theorem readDigits_eq_some_iff {cs : List Char} {n : Nat} :
    readDigits cs = some n ↔
      cs ≠ [] ∧ (∀ c ∈ cs, c.isDigit = true) ∧ n = Nat.ofDigitChars 10 cs 0 := by
  rw [readDigits]
  split
  · rename_i hDigits
    rw [List.all_eq_true] at hDigits
    rw [Option.some.injEq, eq_comm]
    exact ⟨fun h => ⟨hDigits.1, hDigits.2, h⟩, fun h => h.2.2⟩
  · rename_i hDigits
    rw [List.all_eq_true] at hDigits
    exact ⟨nofun, fun h => absurd ⟨h.1, h.2.1⟩ hDigits⟩

theorem readDigits_toDigits (n : Nat) : readDigits (Nat.toDigits 10 n) = some n :=
  readDigits_eq_some_iff.mpr ⟨Nat.toDigits_ne_nil, fun _ hc => isDigit_of_mem_toDigits hc,
    Nat.ofDigitChars_ten_toDigits.symm⟩

theorem toDigits_eq_cons (n : Nat) :
    ∃ first rest, Nat.toDigits 10 n = first :: rest ∧ first.isDigit = true := by
  obtain ⟨first, rest, hDigits⟩ :=
    List.exists_cons_of_ne_nil (Nat.toDigits_ne_nil (n := n) (b := 10))
  exact ⟨first, rest, hDigits, isDigit_of_mem_toDigits (hDigits ▸ List.mem_cons_self)⟩

theorem ne_of_isDigit {c d : Char} (hDigit : c.isDigit = true) (hOther : d.isDigit = false) :
    c ≠ d := by
  rintro rfl
  exact absurd hDigit (by simp [hOther])

theorem readUnsigned_of_isDigit {first : Char} (h : first.isDigit = true) (rest : List Char) :
    readUnsigned (first :: rest) = readDigits (first :: rest) := by
  have hPlus : first ≠ '+' := ne_of_isDigit h rfl
  rw [readUnsigned.eq_2 _ (by simpa using hPlus)]

theorem readSigned_of_isDigit {first : Char} (h : first.isDigit = true) (rest : List Char) :
    readSigned (first :: rest) = (readDigits (first :: rest)).map Int.ofNat := by
  have hMinus : first ≠ '-' := ne_of_isDigit h rfl
  rw [readSigned.eq_2 _ (by simpa using hMinus), readUnsigned_of_isDigit h]

theorem readUnsigned_toDigits (n : Nat) : readUnsigned (Nat.toDigits 10 n) = some n := by
  obtain ⟨first, rest, hDigits, hFirst⟩ := toDigits_eq_cons n
  have hRead := readDigits_toDigits n
  rw [hDigits] at hRead ⊢
  rw [readUnsigned_of_isDigit hFirst, hRead]

theorem readSigned_toDigits (n : Nat) : readSigned (Nat.toDigits 10 n) = some (n : Int) := by
  obtain ⟨first, rest, hDigits, hFirst⟩ := toDigits_eq_cons n
  have hRead := readDigits_toDigits n
  rw [hDigits] at hRead ⊢
  rw [readSigned_of_isDigit hFirst, hRead]
  rfl

theorem readSigned_intText (i : Int) : readSigned (intText i).toList = some i := by
  cases i with
  | ofNat n => simpa [intText, natText] using readSigned_toDigits n
  | negSucc n =>
    have hChars : (intText (.negSucc n)).toList = '-' :: Nat.toDigits 10 (n + 1) := by
      simp [intText, natText]
    rw [hChars, readSigned, readDigits_toDigits]
    rfl

/-- The number of a numeral, which is one digit or more, after a sign or none. -/
inductive Spells : List Char → Int → Prop
  | plain {digits : List Char} (hNe : digits ≠ []) (hDigits : ∀ c ∈ digits, c.isDigit = true) :
      Spells digits (Nat.ofDigitChars 10 digits 0)
  | plus {digits : List Char} (hNe : digits ≠ []) (hDigits : ∀ c ∈ digits, c.isDigit = true) :
      Spells ('+' :: digits) (Nat.ofDigitChars 10 digits 0)
  | minus {digits : List Char} (hNe : digits ≠ []) (hDigits : ∀ c ∈ digits, c.isDigit = true) :
      Spells ('-' :: digits) (-(Nat.ofDigitChars 10 digits 0 : Int))

theorem spells_of_readSigned {cs : List Char} {i : Int} (h : readSigned cs = some i) :
    Spells cs i := by
  rw [readSigned.eq_def] at h
  split at h
  · obtain ⟨magnitude, hMagnitude, rfl⟩ := Option.map_eq_some_iff.mp h
    obtain ⟨n, hDigits, hCast⟩ := Option.bind_eq_some_iff.mp hMagnitude
    obtain ⟨hNe, hAll, rfl⟩ := readDigits_eq_some_iff.mp hDigits
    cases hCast
    exact .minus hNe hAll
  · obtain ⟨n, hRead, rfl⟩ := Option.map_eq_some_iff.mp h
    rw [readUnsigned.eq_def] at hRead
    split at hRead
    · obtain ⟨hNe, hAll, rfl⟩ := readDigits_eq_some_iff.mp hRead
      exact .plus hNe hAll
    · obtain ⟨hNe, hAll, rfl⟩ := readDigits_eq_some_iff.mp hRead
      exact .plain hNe hAll

theorem readSigned_eq_some_iff {cs : List Char} {i : Int} : readSigned cs = some i ↔ Spells cs i := by
  constructor
  · exact spells_of_readSigned
  · intro h
    cases h with
    | plain hNe hDigits =>
      obtain ⟨first, rest, rfl⟩ := List.exists_cons_of_ne_nil hNe
      rw [readSigned_of_isDigit (hDigits first List.mem_cons_self),
        readDigits_eq_some_iff.mpr ⟨hNe, hDigits, rfl⟩]
      rfl
    | plus hNe hDigits =>
      have hRead := readDigits_eq_some_iff.mpr ⟨hNe, hDigits, rfl⟩
      rw [readSigned.eq_2 _ (by simp), readUnsigned, hRead]
      rfl
    | minus hNe hDigits =>
      rw [readSigned, readDigits_eq_some_iff.mpr ⟨hNe, hDigits, rfl⟩]
      rfl

theorem int64?_toInt (i : Int64) : int64? i.toInt = some i := by
  rw [int64?, if_pos ⟨i.minValue_le_toInt, i.toInt_le⟩, Int64.ofInt_toInt]

theorem readInt64_intText (i : Int64) : readInt64 (intText i.toInt) = some i := by
  rw [readInt64, readSigned_intText, Option.bind_some, int64?_toInt]

theorem int64?_eq_some_iff {i : Int} {n : Int64} : int64? i = some n ↔ n.toInt = i := by
  constructor
  · intro h
    rw [int64?] at h
    split at h
    · rename_i hRange
      cases h
      exact Int64.toInt_ofInt_of_le hRange.1 (Int.lt_of_le_of_lt hRange.2 (by decide))
    · cases h
  · rintro rfl
    exact int64?_toInt n

theorem readInt64_eq_some_iff {s : String} {n : Int64} :
    readInt64 s = some n ↔ Spells s.toList n.toInt := by
  rw [readInt64, Option.bind_eq_some_iff, ← readSigned_eq_some_iff]
  constructor
  · rintro ⟨i, hRead, hRange⟩
    rwa [int64?_eq_some_iff.mp hRange]
  · intro h
    exact ⟨_, h, int64?_toInt n⟩

theorem readInt64_natText {n : Nat} (h : n < 2 ^ 63) :
    readInt64 (natText n) = some (Int64.ofNat n) := by
  have hRead := readInt64_intText (Int64.ofNat n)
  rwa [Int64.toInt_ofNat_of_lt h] at hRead

theorem readCount_natText {n : Nat} (h : n < UInt64.size) : readCount (natText n) = some n := by
  rw [readCount, natText, String.toList_ofList, readUnsigned_toDigits]
  simp [Option.filter, h]

theorem isWord_natText (n : Nat) : IsWord (natText n) := by
  refine ⟨by simp [natText], ?_⟩
  rw [natText, String.toList_ofList]
  intro c hc
  exact isSeparator_of_isDigit (isDigit_of_mem_toDigits hc)

theorem isWord_intText (i : Int) : IsWord (intText i) := by
  cases i with
  | ofNat n => exact isWord_natText n
  | negSucc n =>
    refine ⟨by simp [intText], ?_⟩
    intro c hc
    rw [intText, String.toList_append] at hc
    rcases List.mem_append.mp hc with hc | hc
    · simp at hc
      subst hc
      decide
    · exact (isWord_natText (n + 1)).2 c hc

end Keyspace.Text
