import Mathlib.Data.List.Induction
import Mathlib.Tactic.Common
import Keyspace.Text.Blank

/-! # Words: a line of them falls apart into them again, and a line of separators has none -/
namespace Keyspace.Text
set_option autoImplicit false

theorem eq_false_of_mem_splitOnP {test : Char → Bool} {cs piece : List Char}
    (h : piece ∈ cs.splitOnP test) : ∀ c ∈ piece, test c = false := by
  induction cs generalizing piece with
  | nil =>
    rw [List.splitOnP_nil, List.mem_singleton] at h
    simp [h]
  | cons first rest ih =>
    rw [List.splitOnP_cons_eq_if_modifyHead] at h
    split at h
    · rcases List.mem_cons.mp h with rfl | h
      · simp
      · exact ih h
    · rename_i hFirst
      obtain ⟨head, tail, hSplit⟩ := List.exists_cons_of_ne_nil (List.splitOnP_ne_nil test rest)
      rw [hSplit] at h ih
      rcases List.mem_cons.mp h with rfl | h
      · intro c hc
        rcases List.mem_cons.mp hc with rfl | hc
        · exact Bool.eq_false_iff.mpr hFirst
        · exact ih List.mem_cons_self c hc
      · exact ih (List.mem_cons_of_mem head h)

theorem isWord_of_mem_words {s word : String} (h : word ∈ words s) : IsWord word := by
  obtain ⟨piece, hPiece, rfl⟩ := List.mem_map.mp h
  obtain ⟨hMem, hNe⟩ := List.mem_filter.mp hPiece
  constructor
  · simpa using hNe
  · rw [String.toList_ofList]
    exact eq_false_of_mem_splitOnP hMem

theorem words_append {word blank : String} {c : Char} (h : IsWord word)
    (hBlank : blank.toList = [c]) (hSeparator : isSeparator c = true) (rest : String) :
    words (word ++ blank ++ rest) = word :: words rest := by
  have hChars : (word ++ blank ++ rest).toList = word.toList ++ c :: rest.toList := by
    simp [hBlank]
  rw [words, hChars, List.splitOnP_append_cons_of_forall_mem h.2 c hSeparator rest.toList,
    List.filter_cons_of_pos (by simpa using h.1), List.map_cons, String.ofList_toList, words]

/-- A separator at the end of a text parts nothing from it. -/
theorem words_concat {s t : String} {c : Char} (hChars : s.toList = t.toList ++ [c])
    (h : isSeparator c = true) : words s = words t := by
  rw [words, hChars, List.splitOnP_append_cons _ _ h]
  simp [words]

theorem words_append_separators {s t : String} {blanks : List Char}
    (hChars : s.toList = t.toList ++ blanks) (h : ∀ c ∈ blanks, isSeparator c = true) :
    words s = words t := by
  induction blanks using List.reverseRecOn generalizing s with
  | nil =>
    rw [List.append_nil, String.toList_inj] at hChars
    rw [hChars]
  | append_singleton blanks c ih =>
    obtain ⟨hBlanks, hLast⟩ := List.forall_mem_append.mp h
    have hInit : s.toList = (String.ofList (t.toList ++ blanks)).toList ++ [c] := by
      rw [hChars, String.toList_ofList, List.append_assoc]
    rw [words_concat hInit (hLast c List.mem_cons_self), ih String.toList_ofList hBlanks]

theorem words_append_newline (s : String) : words (s ++ "\n") = words s :=
  words_concat (c := '\n') (by simp) rfl

/-- The pieces between separators have all other characters, in order. -/
theorem flatten_splitOnP (test : Char → Bool) (cs : List Char) :
    (cs.splitOnP test).flatten = cs.filter (!test ·) := by
  induction cs with
  | nil => simp
  | cons first rest ih =>
    obtain ⟨head, tail, hSplit⟩ := List.exists_cons_of_ne_nil (List.splitOnP_ne_nil test rest)
    rw [hSplit] at ih
    rw [List.splitOnP_cons_eq_if_modifyHead, hSplit]
    split
    · rename_i hFirst
      rw [List.filter_cons_of_neg (by simp [hFirst]), ← ih]
      rfl
    · rename_i hFirst
      rw [List.filter_cons_of_pos (by simp [hFirst]), ← ih]
      rfl

theorem flatMap_words (s : String) :
    (words s).flatMap String.toList = s.toList.filter (!isSeparator ·) := by
  rw [words, List.flatMap_map]
  simp only [String.toList_ofList]
  rw [← flatten_splitOnP, List.flatMap_id', List.flatten_filter_ne_nil]

theorem words_eq_nil_iff {s : String} :
    words s = [] ↔ ∀ c ∈ s.toList, isSeparator c = true := by
  rw [words, List.map_eq_nil_iff]
  induction s.toList with
  | nil => simp
  | cons first rest ih =>
    rw [List.splitOnP_cons_eq_if_modifyHead, List.forall_mem_cons, ← ih]
    split
    · rename_i hFirst
      rw [List.filter_cons_of_neg (by simp)]
      exact (and_iff_right hFirst).symm
    · rename_i hFirst
      -- the first piece begins with a character that is no separator, and is not empty for that
      obtain ⟨head, tail, hSplit⟩ :=
        List.exists_cons_of_ne_nil (List.splitOnP_ne_nil isSeparator rest)
      simp [hSplit, hFirst]

/-- How a text parts into words: there is a separator or the end of the text after each of them. -/
inductive Parts : List Char → List String → Prop
  | blank {cs : List Char} (hBlank : ∀ c ∈ cs, isSeparator c = true) : Parts cs []
  | word {blanks rest : List Char} {word : String} {ws : List String}
      (hBlank : ∀ c ∈ blanks, isSeparator c = true) (hWord : IsWord word)
      (hEnd : ∀ c ∈ rest.head?, isSeparator c = true) (hRest : Parts rest ws) :
      Parts (blanks ++ word.toList ++ rest) (word :: ws)

theorem words_blanks_append {blanks : List Char} (h : ∀ c ∈ blanks, isSeparator c = true)
    (cs : List Char) : words (String.ofList (blanks ++ cs)) = words (String.ofList cs) := by
  induction blanks with
  | nil => rfl
  | cons c blanks ih =>
    obtain ⟨hFirst, hRest⟩ := List.forall_mem_cons.mp h
    rw [← ih hRest, words, words, String.toList_ofList, String.toList_ofList, List.cons_append,
      List.splitOnP_cons_eq_if_modifyHead, if_pos hFirst, List.filter_cons_of_neg (by simp)]

theorem words_word_append {word : String} {rest : List Char} (h : IsWord word)
    (hEnd : ∀ c ∈ rest.head?, isSeparator c = true) :
    words (String.ofList (word.toList ++ rest)) = word :: words (String.ofList rest) := by
  cases rest with
  | nil =>
    have hLine : words (word ++ "\n" ++ "") = word :: words "" := words_append h rfl rfl ""
    rw [String.append_empty, words_append_newline] at hLine
    rw [List.append_nil, String.ofList_toList]
    exact hLine
  | cons c rest =>
    have hSeparator : isSeparator c = true := hEnd c rfl
    have hChars : String.ofList (word.toList ++ c :: rest) =
        word ++ String.singleton c ++ String.ofList rest := by
      rw [← String.toList_inj]
      simp
    have hTail := words_blanks_append (List.forall_mem_singleton.mpr hSeparator) rest
    rw [hChars, words_append h (by simp) hSeparator, ← hTail]
    rfl

theorem words_of_parts {cs : List Char} {ws : List String} (h : Parts cs ws) :
    words (String.ofList cs) = ws := by
  induction h with
  | blank hBlank => exact words_eq_nil_iff.mpr (by rwa [String.toList_ofList])
  | word hBlank hWord hEnd _ ih =>
    rw [List.append_assoc, words_blanks_append hBlank, words_word_append hWord hEnd, ih]

theorem Parts.first_word {c : Char} {cs : List Char} {ws : List String} (h : Parts cs ws)
    (hChar : isSeparator c = false) (hEnd : ∀ d ∈ cs.head?, isSeparator d = true) :
    Parts (c :: cs) (String.ofList [c] :: ws) := by
  have hWord : IsWord (String.ofList [c]) := by simp [IsWord, hChar]
  simpa using Parts.word (List.forall_mem_nil _) hWord hEnd h

theorem Parts.longer_word {c : Char} {rest : List Char} {word : String} {ws : List String}
    (h : Parts rest ws) (hChar : isSeparator c = false) (hWord : IsWord word)
    (hEnd : ∀ d ∈ rest.head?, isSeparator d = true) :
    Parts (c :: (word.toList ++ rest)) (String.ofList (c :: word.toList) :: ws) := by
  have hLonger : IsWord (String.ofList (c :: word.toList)) := by
    refine ⟨by simp, ?_⟩
    rw [String.toList_ofList]
    exact List.forall_mem_cons.mpr ⟨hChar, hWord.2⟩
  simpa using Parts.word (List.forall_mem_nil _) hLonger hEnd h

/-- One more character is a separator before all words, or begins a word, or makes one longer. -/
theorem exists_parts (cs : List Char) : ∃ ws, Parts cs ws := by
  induction cs with
  | nil => exact ⟨[], .blank (List.forall_mem_nil _)⟩
  | cons c cs ih =>
    obtain ⟨ws, hParts⟩ := ih
    cases hChar : isSeparator c with
    | true =>
      cases hParts with
      | blank hBlank => exact ⟨[], .blank (List.forall_mem_cons.mpr ⟨hChar, hBlank⟩)⟩
      | word hBlank hWord hEnd hRest =>
        exact ⟨_, .word (List.forall_mem_cons.mpr ⟨hChar, hBlank⟩) hWord hEnd hRest⟩
    | false =>
      by_cases hEnd : ∀ d ∈ cs.head?, isSeparator d = true
      · exact ⟨_, hParts.first_word hChar hEnd⟩
      · cases hParts with
        | blank hBlank =>
          exact absurd (fun d hd => hBlank d (List.mem_of_mem_head? hd)) hEnd
        | @word blanks rest word ws hBlank hWord hRestEnd hRest =>
          cases blanks with
          | nil => exact ⟨_, hRest.longer_word hChar hWord hRestEnd⟩
          | cons b blanks =>
            refine absurd (fun d hd => ?_) hEnd
            cases hd
            exact hBlank b List.mem_cons_self

theorem parts_iff {s : String} {ws : List String} : Parts s.toList ws ↔ words s = ws := by
  constructor
  · intro h
    rw [← words_of_parts h, String.ofList_toList]
  · rintro rfl
    obtain ⟨ws, hParts⟩ := exists_parts s.toList
    have hWords := words_of_parts hParts
    rw [String.ofList_toList] at hWords
    rwa [hWords]

/-- Words parted by blanks, with a newline at the end, are the words of that line. -/
theorem words_line {ws : List String} (h : ∀ word ∈ ws, IsWord word) :
    words (" ".intercalate ws ++ "\n") = ws := by
  induction ws with
  | nil => decide
  | cons word rest ih =>
    have hWord := h word List.mem_cons_self
    have hRest := ih fun other hOther => h other (List.mem_cons_of_mem word hOther)
    cases rest with
    | nil =>
      have hEnd : words (word ++ "\n" ++ "") = word :: words "" := words_append hWord rfl rfl ""
      simpa [words] using hEnd
    | cons next rest =>
      rw [String.intercalate_cons_cons, String.append_assoc,
        words_append hWord (c := ' ') rfl rfl, hRest]

end Keyspace.Text
