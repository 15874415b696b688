import Mathlib.Data.List.DropRight
import Keyspace.Proofs.Text.Line
import Keyspace.Proofs.Text.Words

/-! # Texts of lines, as texts and as bytes, and lines without the blanks, or the return, at their
ends -/
namespace Keyspace.Text
set_option autoImplicit false

/-- The lines of a text; a last one without a newline is a line too. -/
def lines (s : String) : List String :=
  let pieces := (s.toList.splitOn '\n').map String.ofList
  if pieces.getLast? = some "" then pieces.dropLast else pieces

example : lines "a\n\nb" = ["a", "", "b"] := rfl

theorem flatMap_intercalate {α β : Type} (f : α → List β) (x : α) (pieces : List (List α)) :
    ([x].intercalate pieces).flatMap f = (f x).intercalate (pieces.map (·.flatMap f)) := by
  induction pieces with
  | nil => rfl
  | cons piece rest ih =>
    cases rest with
    | nil => simp
    | cons next rest =>
      rw [List.intercalate_cons_cons, List.map_cons, List.map_cons, List.intercalate_cons_cons]
      simp [ih]

theorem newline_not_mem_of_mem_splitOn {cs piece : List Char} (h : piece ∈ cs.splitOn '\n') :
    '\n' ∉ piece := by
  rw [List.splitOn_eq_splitOnP] at h
  intro hMem
  exact absurd (eq_false_of_mem_splitOnP h '\n' hMem) (by decide)

/-- The bytes of a text fall apart at the newlines into those of its pieces. -/
theorem splitOn_utf8 (s : String) :
    (utf8 s).splitOn LineReader.newline =
      ((s.toList.splitOn '\n').map String.ofList).map utf8 := by
  have hText : utf8 s = [LineReader.newline].intercalate
      (((s.toList.splitOn '\n').map String.ofList).map utf8) := by
    have hChars := flatMap_intercalate String.utf8EncodeChar '\n' (s.toList.splitOn '\n')
    rw [List.intercalate_splitOn, ← utf8_eq_flatMap] at hChars
    have hPieces : ((s.toList.splitOn '\n').map String.ofList).map utf8 =
        (s.toList.splitOn '\n').map (·.flatMap String.utf8EncodeChar) := by
      simp [utf8_eq_flatMap, Function.comp_def]
    rw [hPieces]
    exact hChars
  have hPieces : ∀ bytes ∈ ((s.toList.splitOn '\n').map String.ofList).map utf8,
      LineReader.newline ∉ bytes := by
    simp only [List.mem_map]
    rintro bytes ⟨-, ⟨piece, hPiece, rfl⟩, rfl⟩
    refine newline_not_mem_utf8 ?_
    rw [String.toList_ofList]
    exact newline_not_mem_of_mem_splitOn hPiece
  rw [hText, List.splitOn_intercalate _ hPieces (by simp [List.splitOn_ne_nil])]

theorem newline_not_mem_of_mem_lines {s line : String} (h : line ∈ lines s) :
    '\n' ∉ line.toList := by
  have hPiece : line ∈ (s.toList.splitOn '\n').map String.ofList := by
    rw [lines] at h
    split at h
    · exact List.dropLast_subset _ h
    · exact h
  obtain ⟨piece, hSplit, rfl⟩ := List.mem_map.mp hPiece
  rw [String.toList_ofList]
  exact newline_not_mem_of_mem_splitOn hSplit

theorem lines_of_newline_not_mem {s : String} (hNe : s ≠ "") (h : '\n' ∉ s.toList) :
    lines s = [s] := by
  rw [lines, List.splitOn_eq_singleton h]
  simp [hNe]

theorem toList_trimEnd (s : String) : (trimEnd s).toList = s.toList.rdropWhile isWhiteSpace := by
  rw [trimEnd, String.toList_ofList, List.rdropWhile]

theorem toList_trim (s : String) :
    (trim s).toList = (s.toList.dropWhile isWhiteSpace).rdropWhile isWhiteSpace := by
  rw [trim, toList_trimEnd, String.toList_ofList]

theorem trimEnd_trim (s : String) : trimEnd (trim s) = trim s := by
  rw [← String.toList_inj, toList_trimEnd, toList_trim, List.rdropWhile_idempotent]

theorem isBlank_trimEnd {s : String} (h : trimEnd s ≠ "") : isBlank (trimEnd s) = false := by
  rw [isBlank, Bool.eq_false_iff]
  intro hBlank
  have hNil := List.rdropWhile_eq_nil_iff.mpr (List.all_eq_true.mp hBlank)
  rw [toList_trimEnd, List.rdropWhile_idempotent, ← toList_trimEnd] at hNil
  exact h (String.toList_eq_nil_iff.mp hNil)

theorem isBlank_trim {s : String} (h : trim s ≠ "") : isBlank (trim s) = false :=
  isBlank_trimEnd h

theorem isFramed_trimEnd {s : String} (h : '\n' ∉ s.toList) : IsFramed (trimEnd s) := by
  constructor
  · rw [toList_trimEnd]
    exact fun hMem => h ((List.rdropWhile_prefix _ _).subset hMem)
  · intro hLast
    have hNe : s.toList.rdropWhile isWhiteSpace ≠ [] := by
      rintro hNil
      rw [toList_trimEnd, hNil] at hLast
      cases hLast
    have hBlank := List.rdropWhile_last_not _ _ hNe
    rw [toList_trimEnd, List.getLast?_eq_some_getLast hNe, Option.some.injEq] at hLast
    rw [hLast] at hBlank
    exact hBlank rfl

theorem isFramed_trim {s : String} (h : '\n' ∉ s.toList) : IsFramed (trim s) := by
  apply isFramed_trimEnd
  rw [String.toList_ofList]
  exact fun hMem => h ((List.dropWhile_sublist _).subset hMem)

/-- White space goes from the end of a text, and some of it is no separator. -/
def Frays (s : String) : Prop :=
  ∃ c ∈ s.toList.rtakeWhile isWhiteSpace, isSeparator c = false

instance (s : String) : Decidable (Frays s) := List.decidableBEx _ _

theorem toList_eq_trimEnd_append (s : String) :
    s.toList = (trimEnd s).toList ++ s.toList.rtakeWhile isWhiteSpace := by
  rw [toList_trimEnd, List.rdropWhile_append_rtakeWhile]

theorem words_trimEnd {s : String} (h : ¬ Frays s) : words (trimEnd s) = words s := by
  refine (words_append_separators (toList_eq_trimEnd_append s) ?_).symm
  intro c hc
  by_contra hSeparator
  exact h ⟨c, hc, Bool.eq_false_iff.mpr hSeparator⟩

/-- A line as a reader gives it: a return at its end is no part of it. -/
def withoutReturn (s : String) : String :=
  if s.toList.getLast? = some '\r' then String.ofList s.toList.dropLast else s

theorem withoutReturn_cases (s : String) :
    (withoutReturn s = s ∧ s.toList.getLast? ≠ some '\r') ∨
      s.toList = (withoutReturn s).toList ++ ['\r'] := by
  rw [withoutReturn]
  split
  · rename_i hLast
    rw [String.toList_ofList]
    exact .inr (List.dropLast_append_getLast? '\r' hLast).symm
  · rename_i hLast
    exact .inl ⟨rfl, hLast⟩

theorem words_withoutReturn (s : String) : words (withoutReturn s) = words s := by
  rcases withoutReturn_cases s with ⟨hSame, -⟩ | hChars
  · rw [hSame]
  · exact (words_concat hChars rfl).symm

theorem isBlank_withoutReturn (s : String) : isBlank (withoutReturn s) = isBlank s := by
  rcases withoutReturn_cases s with ⟨hSame, -⟩ | hChars
  · rw [hSame]
  · have hReturn : isWhiteSpace '\r' = true := rfl
    rw [isBlank, isBlank, hChars, List.all_append]
    simp [hReturn]

theorem dropReturn_utf8 {s : String} (h : '\n' ∉ s.toList) :
    LineReader.dropReturn (utf8 s) = utf8 (withoutReturn s) := by
  rcases withoutReturn_cases s with ⟨hSame, hLast⟩ | hChars
  · rw [hSame, LineReader.dropReturn, if_neg (IsFramed.getLast?_ne ⟨h, hLast⟩)]
  · have hReturn : ['\r'].flatMap String.utf8EncodeChar = [LineReader.carriageReturn] := by decide
    have hBytes : utf8 s = utf8 (withoutReturn s) ++ [LineReader.carriageReturn] := by
      rw [utf8_eq_flatMap, hChars, List.flatMap_append, ← utf8_eq_flatMap, hReturn]
    rw [hBytes, LineReader.dropReturn, if_pos List.getLast?_concat, List.dropLast_concat]

end Keyspace.Text
