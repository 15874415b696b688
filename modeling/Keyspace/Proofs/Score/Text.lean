import Keyspace.Proofs.Score.Shortest
import Keyspace.Proofs.Score.Spelling

/-! # Scores as text: a number is written as a word, and read back as itself -/
namespace Keyspace.Score
open Text
set_option autoImplicit false

def magnitude (rank : Rank) : List Char :=
  if rank = .infinity then "inf".toList else rank.shortest.chars

theorem text_number (negative : Bool) (rank : Rank) :
    (number negative rank).text =
      String.ofList (if negative then '-' :: magnitude rank else magnitude rank) := rfl

theorem magnitude_number (negative : Bool) (rank : Rank) :
    Magnitude negative (magnitude rank) (number negative rank) := by
  by_cases hInfinite : rank = .infinity
  · rw [magnitude, if_pos hInfinite, hInfinite]
    exact .infinite (.inl (sameLetters_iff.mpr rfl))
  · obtain ⟨⟨c, p, hShortest⟩, hRank⟩ := Rank.shortest_spec hInfinite
    have hRounds := rank.shortest.rounds_rank
    rw [hRank, hShortest] at hRounds
    rw [magnitude, if_neg hInfinite, hShortest]
    exact .decimal (Decimal.spelled_chars c p) hRounds

theorem read_text_number (negative : Bool) (rank : Rank) :
    read (number negative rank).text = some (number negative rank) := by
  rw [read_eq_some_iff, text_number, String.toList_ofList]
  cases negative with
  | true => exact .minus (magnitude_number true rank)
  | false => exact .plain (magnitude_number false rank)

theorem magnitude_ne_nil (rank : Rank) : magnitude rank ≠ [] := by
  by_cases hInfinite : rank = .infinity
  · rw [magnitude, if_pos hInfinite]
    decide
  · obtain ⟨⟨c, p, hShortest⟩, -⟩ := Rank.shortest_spec hInfinite
    rw [magnitude, if_neg hInfinite, hShortest, Decimal.chars_eq]
    exact List.append_ne_nil_of_left_ne_nil Nat.toDigits_ne_nil _

theorem isSeparator_of_mem_magnitude {rank : Rank} {c : Char} (h : c ∈ magnitude rank) :
    isSeparator c = false := by
  by_cases hInfinite : rank = .infinity
  · have hInfinity : IsWord "inf" := by decide
    rw [magnitude, if_pos hInfinite] at h
    exact hInfinity.2 c h
  · obtain ⟨⟨k, p, hShortest⟩, -⟩ := Rank.shortest_spec hInfinite
    rw [magnitude, if_neg hInfinite, hShortest, Decimal.chars_eq] at h
    rcases List.mem_append.mp h with h | h
    · exact isSeparator_of_isDigit (isDigit_of_mem_toDigits h)
    · split at h
      · exact absurd h List.not_mem_nil
      · rcases List.mem_cons.mp h with rfl | h
        · rfl
        · exact isSeparator_of_isDigit (Decimal.isDigit_of_mem_fraction h)

theorem isWord_text (s : Score) : IsWord s.text := by
  cases s with
  | nan => decide
  | number negative rank =>
    have hMagnitude : ∀ c ∈ magnitude rank, isSeparator c = false := fun c =>
      isSeparator_of_mem_magnitude
    rw [text_number]
    constructor
    · cases negative <;> simp [magnitude_ne_nil]
    · rw [String.toList_ofList]
      cases negative with
      | false => exact hMagnitude
      | true => exact List.forall_mem_cons.mpr ⟨rfl, hMagnitude⟩

end Keyspace.Score
