import Keyspace.Proofs.SkipList.Run
import Keyspace.Proofs.SkipList.Cardinality

/-! # Selection: which of the entries a range or a query finds, and which a removal takes out -/
namespace Keyspace
open Tower
set_option autoImplicit false

section Leading

variable {α : Type} {test : α → Bool} {xs : List α}

/-- What passes the test comes before what does not. -/
def Leading (test : α → Bool) (xs : List α) : Prop :=
  xs.Pairwise fun a b => test b = true → test a = true

theorem Leading.filter_eq_nil {x : α} (h : Leading test (x :: xs)) (hFirst : test x = false) :
    xs.filter test = [] := by
  rw [List.filter_eq_nil_iff]
  intro y hy hTest
  have hPasses := (List.pairwise_cons.mp h).1 y hy hTest
  rw [hFirst] at hPasses
  cases hPasses

theorem Leading.dropWhile_eq (h : Leading test xs) :
    xs.dropWhile test = xs.filter (!test ·) := by
  induction xs with
  | nil => rfl
  | cons x xs ih =>
    cases hFirst : test x with
    | true =>
      rw [List.dropWhile_cons_of_pos hFirst, List.filter_cons_of_neg (by simp [hFirst]),
        ih (List.pairwise_cons.mp h).2]
    | false =>
      have hNone := List.filter_eq_nil_iff.mp (h.filter_eq_nil hFirst)
      rw [List.dropWhile_cons_of_neg (by simp [hFirst]), List.filter_eq_self.mpr]
      simpa [hFirst] using hNone

/-- It makes no difference whether some are dropped from all or from those that pass. -/
theorem Leading.takeWhile_drop (h : Leading test xs) (n : Nat) :
    (xs.drop n).takeWhile test = (xs.filter test).drop n := by
  induction xs generalizing n with
  | nil => simp
  | cons x xs ih =>
    have hRest := ih (List.pairwise_cons.mp h).2
    cases hFirst : test x with
    | true =>
      rw [List.filter_cons_of_pos hFirst]
      cases n with
      | zero =>
        have hAll := hRest 0
        rw [List.drop_zero, List.drop_zero] at hAll
        rw [List.drop_zero, List.drop_zero, List.takeWhile_cons_of_pos hFirst, hAll]
      | succ n => exact hRest n
    | false =>
      have hNone := h.filter_eq_nil hFirst
      rw [List.filter_cons_of_neg (by simp [hFirst]), hNone, List.drop_nil]
      cases n with
      | zero => exact List.takeWhile_cons_of_neg (by simp [hFirst])
      | succ n => rw [List.drop_succ_cons, hRest, hNone, List.drop_nil]

end Leading

namespace ScoreMap

variable {m : ScoreMap}

theorem mem_entries_iff (m : ScoreMap) (member : String) (score : Score) :
    (member, score) ∈ entries m ↔ m[member]? = some score := by
  rw [entries, (List.mergeSort_perm ..).mem_iff, Std.ExtTreeMap.mem_toList_iff_getElem?_eq_some]

theorem ascending_entries (m : ScoreMap) :
    (entries m).Pairwise fun a b => a.place < b.place := by
  refine (m.sorted_entries.and m.distinct_entries).imp ?_
  rintro a b ⟨hLe, hNe⟩
  exact lt_of_le_of_ne hLe fun hEq => hNe (member_eq_of_placeOf hEq)

theorem getElem?_eraseAll (m : ScoreMap) (dropped : List ScoredMember) (member : String) :
    (m.eraseAll dropped)[member]? = if member ∈ dropped.map Prod.fst then none else m[member]? := by
  induction dropped generalizing m with
  | nil => rfl
  | cons entry rest ih =>
    have hErased := ih (m.erase entry.1)
    rw [eraseAll, List.foldl_cons, ← eraseAll, hErased, Std.ExtTreeMap.getElem?_erase]
    by_cases hFirst : entry.1 = member
    · simp [hFirst]
    · have hCompare : compare entry.1 member ≠ .eq := mt Std.compare_eq_iff_eq.mp hFirst
      have hOther : member ≠ entry.1 := Ne.symm hFirst
      simp only [if_neg hCompare, List.map_cons, List.mem_cons, hOther, false_or]

/-- What is taken out of the entries leaves those before it and those after it. -/
theorem entries_eraseAll {before dropped after : List ScoredMember}
    (h : entries m = before ++ dropped ++ after) :
    entries (m.eraseAll dropped) = before ++ after := by
  have hAscending := m.ascending_entries
  have hDistinct := m.distinct_entries
  rw [h] at hAscending hDistinct
  have hSub : (before ++ after).Sublist (before ++ dropped ++ after) :=
    (List.sublist_append_left before dropped).append_right after
  refine entries_eq_of_ascending (hAscending.sublist hSub) fun member score => ?_
  rw [getElem?_eraseAll]
  split
  · rename_i hDropped
    obtain ⟨⟨_, old⟩, hOld, rfl⟩ := List.mem_map.mp hDropped
    refine iff_of_false (fun hMem => ?_) nofun
    rw [List.pairwise_append, List.pairwise_append] at hDistinct
    obtain ⟨⟨-, -, hBefore⟩, -, hAfter⟩ := hDistinct
    rcases List.mem_append.mp hMem with hMem | hMem
    · exact hBefore _ hMem _ hOld rfl
    · exact hAfter _ (List.mem_append_right before hOld) _ hMem rfl
  · rename_i hKept
    rw [← mem_entries_iff, h]
    refine ⟨fun hMem => hSub.subset hMem, fun hMem => ?_⟩
    simp only [List.mem_append] at hMem ⊢
    rcases hMem with (hMem | hMem) | hMem
    · exact .inl hMem
    · exact absurd (List.mem_map_of_mem hMem) hKept
    · exact .inr hMem

theorem select_infix (m : ScoreMap) (below within : ScoredMember → Bool) (offset count : Nat) :
    m.select below within offset count <:+: entries m :=
  ((List.take_prefix ..).trans (List.takeWhile_prefix within)).isInfix.trans
    ((List.drop_suffix ..).trans (List.dropWhile_suffix below)).isInfix

theorem select_eq_filter {below within : ScoredMember → Bool} (hBelow : Leading below (entries m))
    (hWithin : Leading within (entries m)) (offset count : Nat) :
    m.select below within offset count =
      (((entries m).filter fun entry => !below entry && within entry).drop offset).take count := by
  have hLeft : Leading within ((entries m).filter (!below ·)) := hWithin.sublist List.filter_sublist
  rw [select, hBelow.dropWhile_eq, hLeft.takeWhile_drop, List.filter_filter]
  simp only [Bool.and_comm]

end ScoreMap

theorem Score.le_iff {a b : Score} :
    a.le b = true ↔ a ≠ nan ∧ b ≠ nan ∧ a.position ≤ b.position := by
  simp [le, compareBy_iff]

namespace SkipList

/-- The lists that a run leads to from an empty one, whatever heights are given, or drawn. -/
inductive Reachable : SkipList → Prop
  | given {coins : Coins} {heights : Nat → Height} {operations : List Operation}
      {answers : List Answer} {l : SkipList}
      (hRun : (empty coins).run? heights operations = some (answers, l)) : Reachable l
  | drawn (coins : Coins) (operations : List Operation) :
      Reachable ((empty coins).run operations).2

variable {l : SkipList}

theorem Reachable.sound (h : l.Reachable) : l.Sound := by
  cases h with
  | @given coins heights operations answers _ hRun =>
    have hRealizes := (wellFormed_empty coins).run? heights operations
    rw [hRun] at hRealizes
    exact hRealizes.sound
  | drawn coins operations => exact ((wellFormed_empty coins).run operations).sound

namespace WellFormed

variable {towers : List Tower}

theorem leading_entries (h : l.WellFormed towers) {test : ScoredMember → Bool}
    (hTest : ∀ t ∈ towers, ∀ u ∈ towers, t.place < u.place → test u.entry = true →
      test t.entry = true) : Leading test (ScoreMap.entries l.scores) := by
  rw [h.entries_eq]
  refine List.pairwise_map.mpr (h.ordered.imp_of_mem ?_)
  intro t u ht hu hPlace
  exact hTest t ht u hu hPlace

theorem le_of_place_lt (h : l.WellFormed towers) (maxScore : Score) :
    ∀ t ∈ towers, ∀ u ∈ towers, t.place < u.place → u.score.le maxScore = true →
      t.score.le maxScore = true := by
  intro t ht u _ hPlace hLe
  obtain ⟨-, hMax, hPosition⟩ := Score.le_iff.mp hLe
  refine Score.le_iff.mpr ⟨h.number t ht, hMax, le_trans ?_ hPosition⟩
  rcases placeOf_lt_iff.mp hPlace with hLess | ⟨hEq, -⟩
  · exact hLess.le
  · exact hEq.le

theorem within_of_place_lt (h : l.WellFormed towers) (maxScore : Score) (maxMember : String) :
    ∀ t ∈ towers, ∀ u ∈ towers, t.place < u.place →
      (u.score.lt maxScore || (u.score.same maxScore && u.member ≤ maxMember)) = true →
      (t.score.lt maxScore || (t.score.same maxScore && t.member ≤ maxMember)) = true := by
  have hWithin : ∀ v ∈ towers,
      ((v.score.lt maxScore || (v.score.same maxScore && v.member ≤ maxMember)) = true ↔
        maxScore ≠ .nan ∧ v.place ≤ placeOf maxScore maxMember) := by
    intro v hv
    have hNumber := h.number v hv
    simp only [Bool.or_eq_true, Bool.and_eq_true, Score.lt_iff, Score.same_iff, decide_eq_true_eq,
      place, placeOf, Prod.Lex.toLex_le_toLex]
    tauto
  intro t ht u hu hPlace hU
  rw [hWithin u hu] at hU
  rw [hWithin t ht]
  exact ⟨hU.1, hPlace.le.trans hU.2⟩

end WellFormed

/-- Removing a range takes out the entries that the range has, and tells how many they are; all
others stay as they are. -/
theorem removeRange?_takes_range (h : l.Reachable) (minScore maxScore : Score)
    (offset count : Nat) :
    ∃ before taken after next, l.toList? = some (before ++ taken ++ after) ∧
      l.range? minScore maxScore offset count = some taken ∧
      l.removeRange? minScore maxScore offset count = some (taken.length, next) ∧
      next.toList? = some (before ++ after) ∧
      (∀ entry ∈ taken, next.score? entry.1 = none) ∧
      ∀ member, member ∉ taken.map Prod.fst → next.score? member = l.score? member := by
  obtain ⟨towers, hWellFormed⟩ := h.sound
  obtain ⟨next, towers', hRemove, hNext, hScores⟩ :=
    hWellFormed.removeRange? minScore maxScore offset count
  obtain ⟨before, after, hSplit⟩ := ScoreMap.select_infix l.scores
    (fun entry => entry.2.lt minScore) (fun entry => entry.2.le maxScore) offset count
  refine ⟨before, _, after, next, hSplit ▸ hWellFormed.toList?_eq,
    hWellFormed.range?_eq minScore maxScore offset count, hRemove, ?_, ?_, ?_⟩
  · rw [hNext.toList?_eq, hScores, ScoreMap.removeRange, ScoreMap.entries_eraseAll hSplit.symm]
  · intro entry hEntry
    rw [score?, hScores, ScoreMap.removeRange, ScoreMap.getElem?_eraseAll,
      if_pos (List.mem_map_of_mem hEntry)]
  · intro member hKept
    rw [score?, hScores, ScoreMap.removeRange, ScoreMap.getElem?_eraseAll, if_neg hKept]
    rfl

/-- With no lower bound to speak of, the second of two members of one score. -/
theorem removeRange?_of_tie :
    let l := ((empty default).run [.insert "b" .zero, .insert "a" .zero, .insert "c" .infinity]).2
    l.Reachable ∧ l.range? .nan .zero 1 9 = some [("b", .zero)] ∧
      ∃ next, l.removeRange? .nan .zero 1 9 = some (1, next) ∧
        next.toList? = some [("a", .zero), ("c", .infinity)] ∧ next.score? "b" = none := by
  intro l
  have hReachable : l.Reachable := .drawn default _
  obtain ⟨before, taken, after, next, hList, hRange, hRemove, hNext, hGone, -⟩ :=
    removeRange?_takes_range hReachable .nan .zero 1 9
  have hTaken : l.range? .nan .zero 1 9 = some [("b", .zero)] := rfl
  have hAll : l.toList? = some [("a", .zero), ("b", .zero), ("c", .infinity)] := rfl
  cases hTaken.symm.trans hRange
  have hSplit := Option.some.inj (hAll.symm.trans hList)
  obtain ⟨rfl, rfl⟩ : before = [("a", .zero)] ∧ after = [("c", .infinity)] := by
    simp only [List.append_assoc, List.cons_append, List.nil_append, List.cons_eq_append_iff,
      List.nil_eq_append_iff] at hSplit
    simpa using hSplit
  exact ⟨hReachable, hTaken, next, hRemove, hNext, hGone _ List.mem_cons_self⟩

/-- A range, and a query, has those of all entries that lie within its bounds, in their order, less
the first `offset` of them and those after `count`. -/
theorem range?_query?_filter (h : l.Reachable) (minScore : Score) (minMember : String)
    (maxScore : Score) (maxMember : String) (offset count : Nat) :
    ∃ entries, l.toList? = some entries ∧ entries.Pairwise ScoredMember.before ∧
      (∀ member score, (member, score) ∈ entries ↔ l.score? member = some score) ∧
      l.range? minScore maxScore offset count = some (((entries.filter fun entry =>
        !entry.2.lt minScore && entry.2.le maxScore).drop offset).take count) ∧
      l.query? minScore minMember maxScore maxMember offset count = some
        (((entries.filter fun entry =>
          !(entry.2.lt minScore || entry.2.same minScore && entry.1 < minMember) &&
            (entry.2.lt maxScore || entry.2.same maxScore && entry.1 ≤ maxMember)).drop
          offset).take count) := by
  obtain ⟨towers, hWellFormed⟩ := h.sound
  refine ⟨_, hWellFormed.toList?_eq, hWellFormed.entries_eq ▸ hWellFormed.ascending,
    hWellFormed.mem_entries_iff, ?_, ?_⟩
  · rw [hWellFormed.range?_eq, ScoreMap.select_eq_filter]
    · exact hWellFormed.leading_entries (hWellFormed.lt_of_place_lt minScore)
    · exact hWellFormed.leading_entries (hWellFormed.le_of_place_lt maxScore)
  · rw [hWellFormed.query?_eq, ScoreMap.select_eq_filter]
    · exact hWellFormed.leading_entries (hWellFormed.precedes_of_place_lt minScore minMember)
    · exact hWellFormed.leading_entries (hWellFormed.within_of_place_lt maxScore maxMember)

/-- The upper bound of the query parts two members of one score, and the offset runs past it. -/
theorem range?_query?_of_tie :
    let l := ((empty default).run [.insert "b" .zero, .insert "a" .zero, .insert "c" .infinity]).2
    l.Reachable ∧ l.range? .zero .zero 1 9 = some [("b", .zero)] ∧
      l.query? .zero "a" .zero "a" 1 9 = some [] := by
  intro l
  have hReachable : l.Reachable := .drawn default _
  obtain ⟨entries, hList, -, -, hRange, hQuery⟩ :=
    range?_query?_filter hReachable .zero "a" .zero "a" 1 9
  have hAll : l.toList? = some [("a", .zero), ("b", .zero), ("c", .infinity)] := rfl
  cases hAll.symm.trans hList
  exact ⟨hReachable, hRange.trans rfl, hQuery.trans rfl⟩

end SkipList
end Keyspace
