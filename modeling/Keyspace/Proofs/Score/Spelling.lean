import Keyspace.Score.Text
import Keyspace.Proofs.Score.Decimal
import Keyspace.Proofs.Score.Nearest
import Keyspace.Proofs.Text.Letters

/-! # Spelling: which texts are numbers, and the scores that they are -/
namespace Keyspace
open Text
set_option autoImplicit false

theorem Decimal.Spelled.exists_first {cs : List Char} {d : Decimal} (h : Spelled cs d) :
    ∃ first rest, cs = first :: rest ∧ (first.isDigit = true ∨ first = '.') := by
  cases h with
  | @whole digits tail _ hNe hDigits _ =>
    obtain ⟨first, rest, rfl⟩ := List.exists_cons_of_ne_nil hNe
    exact ⟨first, rest ++ tail, rfl, .inl (hDigits first List.mem_cons_self)⟩
  | @point digits fraction tail _ _ hDigits _ =>
    cases digits with
    | nil => exact ⟨'.', fraction ++ tail, rfl, .inr rfl⟩
    | cons first rest =>
      exact ⟨first, rest ++ '.' :: (fraction ++ tail), rfl, .inl (hDigits first List.mem_cons_self)⟩

namespace Score

/-- Infinity and what is not a number have names; all other magnitudes are decimals, of which the
score is the nearest one. -/
inductive Magnitude (negative : Bool) : List Char → Score → Prop
  | infinite {cs : List Char}
      (hName : SameLetters "inf".toList cs ∨ SameLetters "infinity".toList cs) :
      Magnitude negative cs (number negative .infinity)
  | nan {cs : List Char} (hName : SameLetters "nan".toList cs) : Magnitude negative cs nan
  | decimal {cs : List Char} {d : Decimal} {rank : Rank} (hSpelled : Decimal.Spelled cs d)
      (hRounds : Rank.Rounds d.value rank) : Magnitude negative cs (number negative rank)

/-- The score of a text: a magnitude after a sign or none. -/
inductive Spelled : List Char → Score → Prop
  | plain {cs : List Char} {s : Score} (h : Magnitude false cs s) : Spelled cs s
  | plus {cs : List Char} {s : Score} (h : Magnitude false cs s) : Spelled ('+' :: cs) s
  | minus {cs : List Char} {s : Score} (h : Magnitude true cs s) : Spelled ('-' :: cs) s

theorem toLower_of_isDigit {c : Char} (h : c.isDigit = true) : c.toLower = c := by
  simp only [Char.isDigit, Bool.and_eq_true, decide_eq_true_eq] at h
  have hUpper : ¬ (c.val ≥ 'A'.val ∧ c.val ≤ 'Z'.val) := fun hBoth =>
    absurd (UInt32.le_trans hBoth.1 h.2) (by decide)
  exact dif_neg hUpper

/-- No decimal begins with a letter. -/
theorem map_toLower_ne_of_spelled {cs : List Char} {d : Decimal} (h : Decimal.Spelled cs d)
    {letter : Char} (hLetter : letter.isDigit = false ∧ letter ≠ '.') (name : List Char) :
    cs.map Char.toLower ≠ letter :: name := by
  obtain ⟨first, rest, rfl, hFirst⟩ := h.exists_first
  intro hName
  obtain ⟨hSame, -⟩ := List.cons.inj hName
  rcases hFirst with hDigit | rfl
  · rw [toLower_of_isDigit hDigit] at hSame
    rw [← hSame, hDigit] at hLetter
    exact absurd hLetter.1 (by decide)
  · exact hLetter.2 hSame.symm

theorem sameLetters_name_iff {name cs : List Char} (h : name.map Char.toLower = name) :
    SameLetters name cs ↔ cs.map Char.toLower = name := by
  rw [sameLetters_iff, h, eq_comm]

theorem magnitude_of_read {negative : Bool} {cs : List Char} {s : Score}
    (h : readMagnitude negative cs = some s) : Magnitude negative cs s := by
  simp only [readMagnitude] at h
  split at h
  · rename_i hName
    cases h
    exact .infinite (hName.imp (sameLetters_name_iff rfl).mpr (sameLetters_name_iff rfl).mpr)
  · split at h
    · rename_i hName
      cases h
      exact .nan ((sameLetters_name_iff rfl).mpr hName)
    · obtain ⟨d, hRead, rfl⟩ := Option.map_eq_some_iff.mp h
      exact .decimal (Decimal.read_eq_some_iff.mp hRead) d.rounds_rank

theorem readMagnitude_of_magnitude {negative : Bool} {cs : List Char} {s : Score}
    (h : Magnitude negative cs s) : readMagnitude negative cs = some s := by
  simp only [readMagnitude]
  cases h with
  | infinite hName =>
    rw [if_pos (hName.imp (sameLetters_name_iff rfl).mp (sameLetters_name_iff rfl).mp)]
  | nan hName =>
    have hLower := (sameLetters_name_iff rfl).mp hName
    rw [hLower, if_neg (by decide), if_pos rfl]
  | @decimal d _ hSpelled hRounds =>
    have hNaN : cs.map Char.toLower ≠ "nan".toList :=
      map_toLower_ne_of_spelled hSpelled (by decide) _
    have hInfinite : ¬ (cs.map Char.toLower = "inf".toList ∨
        cs.map Char.toLower = "infinity".toList) := by
      rw [not_or]
      exact ⟨map_toLower_ne_of_spelled hSpelled (by decide) _,
        map_toLower_ne_of_spelled hSpelled (by decide) _⟩
    rw [if_neg hInfinite, if_neg hNaN, Decimal.read_eq_some_iff.mpr hSpelled, Option.map_some,
      hRounds.unique d.rounds_rank]

theorem toLower_of_sameLetters {letter first : Char} {name rest : List Char}
    (h : SameLetters (letter :: name) (first :: rest)) : letter.toLower = first.toLower := by
  cases h with
  | cons hSame _ => exact sameLetter_iff.mp hSame

/-- No magnitude begins with a sign. -/
theorem not_magnitude_of_sign {negative : Bool} {sign : Char} (hSign : sign = '-' ∨ sign = '+')
    (rest : List Char) (s : Score) : ¬ Magnitude negative (sign :: rest) s := by
  intro h
  cases h with
  | infinite hName =>
    rcases hName with hName | hName <;> rcases hSign with rfl | rfl <;>
      exact absurd (toLower_of_sameLetters hName) (by decide)
  | nan hName =>
    rcases hSign with rfl | rfl <;> exact absurd (toLower_of_sameLetters hName) (by decide)
  | decimal hSpelled _ =>
    obtain ⟨first, more, hChars, hFirst⟩ := hSpelled.exists_first
    cases hChars
    rcases hSign with rfl | rfl <;> exact absurd hFirst (by decide)

theorem read_eq_some_iff {word : String} {s : Score} :
    read word = some s ↔ Spelled word.toList s := by
  constructor
  · intro h
    rw [read] at h
    split at h
    · rename_i hChars
      rw [hChars]
      exact .minus (magnitude_of_read h)
    · rename_i hChars
      rw [hChars]
      exact .plus (magnitude_of_read h)
    · exact .plain (magnitude_of_read h)
  · intro h
    rw [read]
    generalize word.toList = cs at h
    cases h with
    | plain h =>
      split
      · exact absurd h (not_magnitude_of_sign (.inl rfl) _ s)
      · exact absurd h (not_magnitude_of_sign (.inr rfl) _ s)
      · exact readMagnitude_of_magnitude h
    | plus h => exact readMagnitude_of_magnitude h
    | minus h => exact readMagnitude_of_magnitude h

end Score
end Keyspace
