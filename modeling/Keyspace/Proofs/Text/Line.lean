import Keyspace.Stream.LineReader
import Keyspace.Proofs.Text.Numeral
import Keyspace.Proofs.Text.Utf8

/-! # Lines: texts that stay on one line, also as bytes -/
namespace Keyspace.Text
set_option autoImplicit false

def Unbroken (s : String) : Prop := ∀ c ∈ s.toList, c ≠ '\n' ∧ c ≠ '\r'

instance (s : String) : Decidable (Unbroken s) := List.decidableBAll _ _

theorem Unbroken.append {s t : String} (hLeft : Unbroken s) (hRight : Unbroken t) :
    Unbroken (s ++ t) := by
  rw [Unbroken, String.toList_append]
  exact List.forall_mem_append.mpr ⟨hLeft, hRight⟩

def IsLine (s : String) : Prop := s ≠ "" ∧ Unbroken s

instance (s : String) : Decidable (IsLine s) := inferInstanceAs (Decidable (_ ∧ _))

theorem IsWord.isLine {s : String} (h : IsWord s) : IsLine s := by
  refine ⟨h.1, fun c hc => ⟨?_, ?_⟩⟩
  · rintro rfl
    exact absurd (h.2 _ hc) (by decide)
  · rintro rfl
    exact absurd (h.2 _ hc) (by decide)

theorem isLine_append {s t : String} (hLeft : IsLine s) (hRight : Unbroken t) : IsLine (s ++ t) :=
  ⟨fun hEmpty => hLeft.1 (String.append_eq_empty_iff.mp hEmpty).1,
    hLeft.2.append hRight⟩

theorem isLine_intercalate {ws : List String} (h : ∀ word ∈ ws, IsWord word) (hWords : ws ≠ []) :
    IsLine (" ".intercalate ws) := by
  induction ws with
  | nil => exact absurd rfl hWords
  | cons word rest ih =>
    obtain ⟨hWord, hRest⟩ := List.forall_mem_cons.mp h
    cases rest with
    | nil => simpa using hWord.isLine
    | cons next rest =>
      rw [String.intercalate_cons_cons]
      refine isLine_append (isLine_append hWord.isLine (by decide)) ?_
      exact (ih hRest (List.cons_ne_nil _ _)).2

theorem utf8_append (s t : String) : utf8 (s ++ t) = utf8 s ++ utf8 t := by
  simp [utf8_eq_flatMap]

theorem utf8_injective {s t : String} (h : utf8 s = utf8 t) : s = t := by
  have hText := ofUtf8?_utf8 s
  rw [h, ofUtf8?_utf8] at hText
  exact (Option.some.inj hText).symm

theorem utf8_of_ofUtf8? {bytes : Bytes} {s : String} (h : ofUtf8? bytes = some s) :
    utf8 s = bytes := by
  simp only [ofUtf8?, String.fromUTF8?] at h
  split at h
  · cases h
    rfl
  · cases h

/-- A byte below 128 is there for the character with that code point alone. -/
theorem toNat_of_mem_utf8EncodeChar {c : Char} {b : UInt8} (h : b ∈ String.utf8EncodeChar c)
    (hAscii : b.toNat < 128) : c.val.toNat = b.toNat := by
  simp only [String.utf8EncodeChar] at h
  split_ifs at h <;> simp only [List.mem_cons, List.not_mem_nil, or_false] at h
  · rw [h, UInt8.toNat_ofNat']
    omega
  · rcases h with rfl | rfl <;> simp only [UInt8.toNat_ofNat'] at hAscii <;> omega
  · rcases h with rfl | rfl | rfl <;> simp only [UInt8.toNat_ofNat'] at hAscii <;> omega
  · rcases h with rfl | rfl | rfl | rfl <;> simp only [UInt8.toNat_ofNat'] at hAscii <;> omega

theorem ne_of_mem_utf8 {s : String} {b : UInt8} {c : Char} (hAscii : b.toNat < 128)
    (hChar : c.val.toNat = b.toNat) (h : ∀ d ∈ s.toList, d ≠ c) : b ∉ utf8 s := by
  intro hMem
  rw [utf8_eq_flatMap] at hMem
  obtain ⟨d, hd, hByte⟩ := List.mem_flatMap.mp hMem
  refine h d hd (Char.ext (UInt32.toNat_inj.mp ?_))
  rw [toNat_of_mem_utf8EncodeChar hByte hAscii, hChar]

theorem newline_not_mem_utf8 {s : String} (h : '\n' ∉ s.toList) : LineReader.newline ∉ utf8 s :=
  ne_of_mem_utf8 (c := '\n') (by decide) rfl fun _ hd hEq => h (hEq ▸ hd)

/-- Followed by a newline, such a text is a line of a stream that is read as it is. -/
structure IsFramed (s : String) : Prop where
  newline : '\n' ∉ s.toList
  carriageReturn : s.toList.getLast? ≠ some '\r'

theorem IsFramed.newline_not_mem {s : String} (h : IsFramed s) : LineReader.newline ∉ utf8 s :=
  newline_not_mem_utf8 h.newline

theorem IsFramed.getLast?_ne {s : String} (h : IsFramed s) :
    (utf8 s).getLast? ≠ some LineReader.carriageReturn := by
  intro hLast
  rcases s.toList.eq_nil_or_concat' with hNil | ⟨front, last, hChars⟩
  · rw [utf8_eq_flatMap, hNil] at hLast
    cases hLast
  · have hNe : String.utf8EncodeChar last ≠ [] := String.utf8EncodeChar_ne_nil
    rw [utf8_eq_flatMap, hChars, List.flatMap_append, List.flatMap_singleton,
      List.getLast?_append_of_ne_nil _ hNe] at hLast
    have hByte := toNat_of_mem_utf8EncodeChar (List.mem_of_getLast? hLast) (by decide)
    refine h.carriageReturn ?_
    rw [hChars, List.getLast?_concat]
    exact congrArg some (Char.ext (UInt32.toNat_inj.mp hByte))

theorem IsLine.isFramed {s : String} (h : IsLine s) : IsFramed s :=
  ⟨fun hMem => (h.2 _ hMem).1 rfl, fun hLast => (h.2 _ (List.mem_of_getLast? hLast)).2 rfl⟩

theorem utf8_newline : utf8 "\n" = [LineReader.newline] := rfl

end Keyspace.Text
