import Keyspace.Proofs.SkipList.Range

/-! # Cardinality: how many members there are, and how many a range over all scores finds -/
namespace Keyspace
set_option autoImplicit false

namespace ScoreMap

variable {m : ScoreMap}

theorem size_insert_of_getElem? {member : String} {old : Score} (h : m[member]? = some old)
    (score : Score) : (m.insert member score).size = m.size := by
  have hContains : m.contains member = true := by
    rw [Std.ExtTreeMap.contains_eq_isSome_getElem?, h]
    rfl
  rw [Std.ExtTreeMap.size_insert, if_pos hContains]

theorem size_put (m : ScoreMap) (member : String) (score : Score) :
    (m.put member score).2.size = m.size + (m.put member score).1.toNat := by
  rw [put]
  split
  · rfl
  · split
    · rename_i old hOld
      dsimp only
      split
      · rfl
      · exact size_insert_of_getElem? hOld score
    · rename_i hNone
      have hNew : ¬ m.contains member = true := by
        rw [Std.ExtTreeMap.contains_eq_isSome_getElem?, hNone]
        exact Bool.false_ne_true
      rw [Std.ExtTreeMap.size_insert, if_neg hNew]
      rfl

theorem size_remove (m : ScoreMap) (member : String) :
    (m.remove member).2.size + (m.remove member).1.toNat = m.size := by
  rw [remove, Std.ExtTreeMap.size_erase]
  cases hContains : m.contains member with
  | false => rfl
  | true =>
    have hPos : m.size ≠ 0 := mt Std.ExtTreeMap.eq_empty_iff_size_eq_zero.mpr
      (Std.ExtTreeMap.ne_empty_of_mem hContains)
    rw [if_pos rfl, Bool.toNat_true]
    omega

/-- Entries of distinct members count one by one. -/
theorem size_eraseAll {dropped : List ScoredMember} (hMem : ∀ entry ∈ dropped, entry.1 ∈ m)
    (hDistinct : dropped.Pairwise fun a b => a.1 ≠ b.1) :
    (m.eraseAll dropped).size + dropped.length = m.size := by
  induction dropped generalizing m with
  | nil => rfl
  | cons entry rest ih =>
    obtain ⟨hFirst, hRest⟩ := List.forall_mem_cons.mp hMem
    obtain ⟨hNe, hDistinct⟩ := List.pairwise_cons.mp hDistinct
    have hLeft : ∀ other ∈ rest, other.1 ∈ m.erase entry.1 := by
      intro other hOther
      rw [Std.ExtTreeMap.mem_erase]
      exact ⟨mt Std.compare_eq_iff_eq.mp (hNe other hOther), hRest other hOther⟩
    have hErased := ih hLeft hDistinct
    have hSize := m.size_remove entry.1
    have hContains : m.contains entry.1 = true := hFirst
    simp only [remove, hContains, Bool.toNat_true] at hSize
    rw [eraseAll, List.foldl_cons, List.length_cons, ← eraseAll]
    omega

theorem mem_of_mem_entries {entry : ScoredMember} (h : entry ∈ entries m) : entry.1 ∈ m := by
  have hFound := (List.mergeSort_perm ..).mem_iff.mp h
  rw [Std.ExtTreeMap.mem_toList_iff_getElem?_eq_some] at hFound
  exact Std.ExtTreeMap.mem_iff_isSome_getElem?.mpr (hFound ▸ rfl)

theorem distinct_entries (m : ScoreMap) : (entries m).Pairwise fun a b => a.1 ≠ b.1 := by
  have hDistinct : m.toList.Pairwise fun a b => a.1 ≠ b.1 :=
    m.distinct_keys_toList.imp fun hNe hEq => hNe (Std.compare_eq_iff_eq.mpr hEq)
  exact (List.mergeSort_perm ..).symm.pairwise hDistinct fun hNe => hNe.symm

theorem length_entries (m : ScoreMap) : (entries m).length = m.size :=
  (List.length_mergeSort _).trans Std.ExtTreeMap.length_toList

theorem select_sublist (m : ScoreMap) (below within : ScoredMember → Bool) (offset count : Nat) :
    (m.select below within offset count).Sublist (entries m) :=
  (List.take_sublist ..).trans ((List.takeWhile_sublist within).trans
    ((List.drop_sublist ..).trans (List.dropWhile_sublist below)))

theorem size_removeRange (m : ScoreMap) (minScore maxScore : Score) (offset count : Nat) :
    (m.removeRange minScore maxScore offset count).2.size +
      (m.removeRange minScore maxScore offset count).1 = m.size := by
  have hDropped := m.select_sublist (fun entry => entry.2.lt minScore)
    (fun entry => entry.2.le maxScore) offset count
  exact size_eraseAll (fun entry hEntry => mem_of_mem_entries (hDropped.subset hEntry))
    (m.distinct_entries.sublist hDropped)

end ScoreMap

theorem Score.lt_negInfinity (s : Score) : s.lt negInfinity = false := by
  rw [Bool.eq_false_iff, Ne, lt_iff]
  rintro ⟨hNaN, -, hLt⟩
  cases s with
  | nan => exact hNaN rfl
  | number negative rank =>
    have hRank := rank.isLt
    have hLeast : negInfinity.position = -infinityRank := rfl
    rw [hLeast, position, position?, Option.getD_some] at hLt
    split at hLt <;> omega

theorem Score.le_infinity {s : Score} (h : s ≠ nan) : s.le infinity = true := by
  rw [le, compareBy_iff]
  refine ⟨h, nofun, ?_⟩
  cases s with
  | nan => exact absurd rfl h
  | number negative rank =>
    have hRank := rank.isLt
    have hGreatest : infinity.position = infinityRank := rfl
    rw [hGreatest, position, position?, Option.getD_some, decide_eq_true_eq]
    split <;> omega

namespace SkipList

/-- A list as the operations leave it. -/
def Sound (l : SkipList) : Prop := ∃ towers, l.WellFormed towers

theorem sound_empty (coins : Coins) : (empty coins).Sound := ⟨[], wellFormed_empty coins⟩

namespace Realizes

variable {α : Type} {result : α × SkipList} {expected : α × ScoreMap}

theorem sound (h : Realizes (some result) expected) : result.2.Sound := by
  obtain ⟨l, towers, hResult, hWellFormed, -⟩ := h
  cases hResult
  exact ⟨towers, hWellFormed⟩

theorem answer_eq (h : Realizes (some result) expected) : result.1 = expected.1 := by
  obtain ⟨l, towers, hResult, -, -⟩ := h
  cases hResult
  rfl

theorem size_eq (h : Realizes (some result) expected) : result.2.size = expected.2.size := by
  obtain ⟨l, towers, hResult, -, hScores⟩ := h
  cases hResult
  exact congrArg Std.ExtTreeMap.size hScores

end Realizes

namespace Sound

variable {l : SkipList}

theorem size_insert (h : l.Sound) (member : String) (score : Score) :
    (l.insert member score).2.size = l.size + (l.insert member score).1.toNat := by
  obtain ⟨towers, hWellFormed⟩ := h
  have hInsert := hWellFormed.realizes_insert member score
  rw [hInsert.size_eq, hInsert.answer_eq]
  exact ScoreMap.size_put l.scores member score

theorem size_remove (h : l.Sound) (member : String) :
    (l.remove member).2.size + (l.remove member).1.toNat = l.size := by
  obtain ⟨towers, hWellFormed⟩ := h
  have hRemove := hWellFormed.realizes_remove member
  rw [hRemove.size_eq, hRemove.answer_eq]
  exact ScoreMap.size_remove l.scores member

theorem size_removeRange (h : l.Sound) (minScore maxScore : Score) (offset count : Nat) :
    (l.removeRange minScore maxScore offset count).2.size +
      (l.removeRange minScore maxScore offset count).1 = l.size := by
  obtain ⟨towers, hWellFormed⟩ := h
  have hRemove := hWellFormed.realizes_removeRange minScore maxScore offset count
  rw [hRemove.size_eq, hRemove.answer_eq]
  exact ScoreMap.size_removeRange l.scores minScore maxScore offset count

/-- Nothing is below the least score, and everything is within the greatest. -/
theorem range_all (h : l.Sound) {count : Nat} (hCount : l.size ≤ count) :
    l.range .negInfinity .infinity 0 count = ScoreMap.entries l.scores := by
  obtain ⟨towers, hWellFormed⟩ := h
  have hWithin : ∀ entry ∈ ScoreMap.entries l.scores, entry.2.le .infinity = true := by
    rintro ⟨member, score⟩ hEntry
    exact Score.le_infinity
      (hWellFormed.number_of_score ((hWellFormed.mem_entries_iff member score).mp hEntry))
  have hBelow : (ScoreMap.entries l.scores).dropWhile (fun entry => entry.2.lt .negInfinity) =
      ScoreMap.entries l.scores := by
    simp only [Score.lt_negInfinity]
    exact List.dropWhile_eq_self_iff.mpr nofun
  rw [SkipList.range, hWellFormed.range?_eq, Option.getD_some, ScoreMap.select, hBelow,
    List.drop_zero, List.takeWhile_eq_self_iff.mpr hWithin]
  exact List.take_of_length_le (ScoreMap.length_entries l.scores ▸ hCount)

end Sound
end SkipList
end Keyspace
