import Keyspace.Proofs.Command.Grammar
import Keyspace.Proofs.Text.Lines

/-! # Strays: white space that parts no words, and that nothing but a text has in it

A command has as many of them as the line that it was read from. -/
namespace Keyspace
open Text
set_option autoImplicit false

namespace Text

def isStray (c : Char) : Bool := isWhiteSpace c && !isSeparator c

def strays (s : String) : Nat := s.toList.countP isStray

def Tidy (cs : List Char) : Prop := ∀ c ∈ cs, isStray c = false

instance (cs : List Char) : Decidable (Tidy cs) := List.decidableBAll _ _

theorem strays_eq_zero_iff {s : String} : strays s = 0 ↔ Tidy s.toList := by
  simp only [strays, List.countP_eq_zero, Tidy, Bool.not_eq_true]

theorem sum_strays_words (s : String) : ((words s).map strays).sum = strays s := by
  have hStray : ∀ c : Char, (isStray c && !isSeparator c) = isStray c := by
    intro c
    simp [isStray]
  have hFlat : ((words s).flatMap String.toList).countP isStray = strays s := by
    rw [flatMap_words, List.countP_filter]
    simp only [hStray, strays]
  rw [← hFlat, List.countP_flatMap]
  rfl

theorem strays_trimEnd_lt {s : String} (h : Frays s) : strays (trimEnd s) < strays s := by
  obtain ⟨c, hMem, hSeparator⟩ := h
  have hStray : isStray c = true := by
    rw [isStray, List.mem_rtakeWhile_imp hMem, hSeparator]
    rfl
  have hLost : 0 < (s.toList.rtakeWhile isWhiteSpace).countP isStray :=
    List.countP_pos_iff.mpr ⟨c, hMem, hStray⟩
  have hSplit := congrArg (List.countP isStray) (toList_eq_trimEnd_append s)
  rw [List.countP_append] at hSplit
  rw [strays, strays, hSplit]
  exact Nat.lt_add_of_pos_right hLost

theorem toNat_of_isWhiteSpace {c : Char} (h : isWhiteSpace c = true) :
    c.toNat ≤ ' '.toNat ∨ '~'.toNat < c.toNat := by
  have hSpace : ' '.toNat = 0x20 := rfl
  have hTilde : '~'.toNat = 0x7E := rfl
  simp only [isWhiteSpace, Bool.or_eq_true, Bool.and_eq_true, decide_eq_true_eq] at h
  omega

theorem isStray_of_visible {c : Char} (hLow : ' '.toNat < c.toNat) (hHigh : c.toNat ≤ '~'.toNat) :
    isStray c = false := by
  rw [Bool.eq_false_iff]
  intro hStray
  have hWhite := toNat_of_isWhiteSpace (Bool.and_eq_true_iff.mp hStray).1
  omega

theorem isStray_of_isDigit {c : Char} (h : c.isDigit = true) : isStray c = false := by
  simp only [Char.isDigit, Bool.and_eq_true, decide_eq_true_eq, ge_iff_le, UInt32.le_iff_toNat_le]
    at h
  exact isStray_of_visible (Nat.lt_of_lt_of_le (by decide) h.1) (Nat.le_trans h.2 (by decide))

theorem SameLetter.isStray_eq_false {c d : Char} (h : SameLetter c d) (hTidy : isStray c = false) :
    isStray d = false := by
  have hFirst : 'A'.toNat = 65 := rfl
  have hLast : 'Z'.toNat = 90 := rfl
  have hSpace : ' '.toNat = 32 := rfl
  have hTilde : '~'.toNat = 126 := rfl
  cases h with
  | self => exact hTidy
  | lower hLow hHigh _ | upper hLow hHigh _ =>
    rw [le_iff_toNat] at hLow hHigh
    exact isStray_of_visible (by omega) (by omega)

theorem SameLetters.tidy {cs ds : List Char} (h : SameLetters cs ds) (hTidy : Tidy cs) :
    Tidy ds := by
  induction h with
  | nil => exact hTidy
  | cons hSame _ ih =>
    obtain ⟨hFirst, hRest⟩ := List.forall_mem_cons.mp hTidy
    exact List.forall_mem_cons.mpr ⟨hSame.isStray_eq_false hFirst, ih hRest⟩

theorem Spells.tidy {cs : List Char} {i : Int} (h : Spells cs i) : Tidy cs := by
  cases h with
  | plain _ hDigits => exact fun c hc => isStray_of_isDigit (hDigits c hc)
  | plus _ hDigits | minus _ hDigits =>
    exact List.forall_mem_cons.mpr ⟨rfl, fun c hc => isStray_of_isDigit (hDigits c hc)⟩

end Text

theorem Decimal.Power.tidy {cs : List Char} {exponent : Int} (h : Power cs exponent) :
    Tidy cs := by
  cases h with
  | absent => exact List.forall_mem_nil _
  | given hMark hNumeral =>
    rcases hMark with rfl | rfl <;> exact List.forall_mem_cons.mpr ⟨rfl, hNumeral.tidy⟩

theorem Decimal.Spelled.tidy {cs : List Char} {d : Decimal} (h : Spelled cs d) : Tidy cs := by
  cases h with
  | whole _ hDigits hPower =>
    exact List.forall_mem_append.mpr ⟨fun c hc => isStray_of_isDigit (hDigits c hc), hPower.tidy⟩
  | point _ hDigits hPower =>
    obtain ⟨hWhole, hFraction⟩ := List.forall_mem_append.mp hDigits
    refine List.forall_mem_append.mpr ⟨fun c hc => isStray_of_isDigit (hWhole c hc), ?_⟩
    refine List.forall_mem_cons.mpr ⟨rfl, List.forall_mem_append.mpr ⟨?_, hPower.tidy⟩⟩
    exact fun c hc => isStray_of_isDigit (hFraction c hc)

theorem Score.Magnitude.tidy {negative : Bool} {cs : List Char} {s : Score}
    (h : Magnitude negative cs s) : Tidy cs := by
  cases h with
  | infinite hName =>
    rcases hName with hName | hName
    · exact hName.tidy (by decide)
    · exact hName.tidy (by decide)
  | nan hName => exact hName.tidy (by decide)
  | decimal hSpelled _ => exact hSpelled.tidy

theorem Score.Spelled.tidy {cs : List Char} {s : Score} (h : Spelled cs s) : Tidy cs := by
  cases h with
  | plain h => exact h.tidy
  | plus h | minus h => exact List.forall_mem_cons.mpr ⟨rfl, h.tidy⟩

theorem Verb.Named.tidy {v : Verb} {word : String} (h : v.Named word) : Tidy word.toList := by
  have hName : Tidy v.name.toList := by cases v <;> decide
  exact SameLetters.tidy h hName

namespace Field

def strays : Field → Nat
  | text value => Text.strays value
  | score _ | integer _ | count _ => 0

end Field

theorem Kind.Reads.strays_eq {kind : Kind} {word : String} {field : Field}
    (h : kind.Reads word field) : field.strays = Text.strays word := by
  cases h with
  | text => rfl
  | score hSpelled _ => exact (strays_eq_zero_iff.mpr hSpelled.tidy).symm
  | integer hSpelled | count hSpelled => exact (strays_eq_zero_iff.mpr hSpelled.tidy).symm

theorem Verb.map_strays_of_reads {v : Verb} {place : Nat} {args : List String}
    {fields : List Field} (h : List.Forall₂ v.Reads (args.zipIdx place) fields) :
    fields.map Field.strays = args.map strays := by
  induction args generalizing place fields with
  | nil =>
    cases h
    rfl
  | cons arg args ih =>
    rw [List.zipIdx_cons] at h
    cases h with
    | cons hFirst hRest => rw [List.map_cons, List.map_cons, hFirst.strays_eq, ih hRest]

/-- The strays of a line are in the texts of the command that it is. -/
theorem Request.sum_strays_of_read {line : String} {c : Command} (h : read line = .ok c) :
    (c.fields.map Field.strays).sum = strays line := by
  have hDecodes := decodes_read line
  rw [h] at hDecodes
  rw [← sum_strays_words]
  generalize words line = ws at hDecodes
  cases hDecodes with
  | command hName _ hFields =>
    rw [List.map_cons, List.sum_cons, strays_eq_zero_iff.mpr hName.tidy, Nat.zero_add,
      Verb.map_strays_of_reads hFields]

theorem Text.isWhiteSpace_of_tidy_word {word : String} (hWord : IsWord word)
    (hTidy : Tidy word.toList) : ∀ c ∈ word.toList, isWhiteSpace c = false := by
  intro c hc
  have hStray := hTidy c hc
  rw [isStray, hWord.2 c hc] at hStray
  simpa using hStray

/-- The name of a command's verb is left when white space goes from the end of its line. -/
theorem Request.trimEnd_ne_of_read {line : String} {c : Command} (h : read line = .ok c) :
    trimEnd line ≠ "" := by
  have hDecodes := decodes_read line
  rw [h] at hDecodes
  have hFlat := flatMap_words line
  have hWord : ∀ word ∈ words line, IsWord word := fun _ => isWord_of_mem_words
  generalize words line = ws at hDecodes hFlat hWord
  cases hDecodes with
  | @command word args _ hName _ _ =>
    obtain ⟨hNe, -⟩ := hWord word List.mem_cons_self
    obtain ⟨first, rest, hChars⟩ :=
      List.exists_cons_of_ne_nil (String.toList_eq_nil_iff.not.mpr hNe)
    have hFirst : first ∈ line.toList := by
      apply List.mem_of_mem_filter (p := (!isSeparator ·))
      rw [← hFlat, List.flatMap_cons, hChars]
      exact List.mem_cons_self
    have hVisible : isWhiteSpace first = false :=
      isWhiteSpace_of_tidy_word (hWord word List.mem_cons_self) hName.tidy first
        (hChars ▸ List.mem_cons_self)
    intro hEmpty
    have hBlank := List.rdropWhile_eq_nil_iff.mp
      ((toList_trimEnd line).symm.trans (String.toList_eq_nil_iff.mpr hEmpty)) first hFirst
    rw [hVisible] at hBlank
    cases hBlank

theorem Request.read_trimEnd {line : String} (h : ¬ Frays line) :
    read (trimEnd line) = read line :=
  read_of_decodes (words_trimEnd h) (decodes_read line)

/-- One command has not more strays than itself. -/
theorem Request.read_trimEnd_ne {line : String} {c : Command} (h : Frays line)
    (hRead : read line = .ok c) : read (trimEnd line) ≠ .ok c := by
  intro hTrimmed
  have hStrays : strays line = strays (trimEnd line) :=
    (sum_strays_of_read hRead).symm.trans (sum_strays_of_read hTrimmed)
  have hFewer := strays_trimEnd_lt h
  omega

end Keyspace
