import Keyspace.Proofs.SkipList.Update
import Keyspace.Proofs.Store.Table

/-! # Score maps: what a skip list is to its users, a finite map that is read in order -/
namespace Keyspace
open Tower
set_option autoImplicit false

abbrev ScoreMap := Std.ExtTreeMap String Score

namespace ScoreMap

def entries (m : ScoreMap) : List ScoredMember :=
  m.toList.mergeSort fun a b : ScoredMember => a.place ≤ b.place

/-- Adds a member, or gives it another score. Answers whether it is new. What is not a number is
refused, and a score that compares equal to the old one does not replace it. -/
def put (m : ScoreMap) (member : String) (score : Score) : Bool × ScoreMap :=
  if score.isNaN then (false, m)
  else
    match m[member]? with
    | some old => (false, if old.same score then m else m.insert member score)
    | none => (true, m.insert member score)

def remove (m : ScoreMap) (member : String) : Bool × ScoreMap :=
  (m.contains member, m.erase member)

/-- Of the entries not below a bound all but the first `offset`, as long as they stay within, at
most `count`. -/
def select (m : ScoreMap) (below within : ScoredMember → Bool) (offset count : Nat) :
    List ScoredMember :=
  ((((entries m).dropWhile below).drop offset).takeWhile within).take count

def eraseAll (m : ScoreMap) (dropped : List ScoredMember) : ScoreMap :=
  dropped.foldl (fun m entry => m.erase entry.1) m

def removeRange (m : ScoreMap) (minScore maxScore : Score) (offset count : Nat) : Nat × ScoreMap :=
  let dropped := m.select (fun entry => entry.2.lt minScore) (fun entry => entry.2.le maxScore)
    offset count
  (dropped.length, m.eraseAll dropped)

theorem sorted_entries (m : ScoreMap) : (entries m).Pairwise fun a b => a.place ≤ b.place := by
  have hSorted := @List.pairwise_mergeSort _ (fun a b : ScoredMember => a.place ≤ b.place)
    (fun a b c hab hbc => decide_eq_true (le_trans (of_decide_eq_true hab) (of_decide_eq_true hbc)))
    (fun a b => by simpa using le_total a.place b.place) m.toList
  exact hSorted.imp of_decide_eq_true

/-- There is one ascending list of a map's entries. -/
theorem entries_eq_of_ascending {m : ScoreMap} {found : List ScoredMember}
    (hAscending : found.Pairwise fun a b => a.place < b.place)
    (hMem : ∀ member score, (member, score) ∈ found ↔ m[member]? = some score) :
    entries m = found := by
  have hPerm : found.Perm m.toList := by
    refine (List.perm_ext_iff_of_nodup (hAscending.imp fun hLt hEq => hLt.ne (congrArg _ hEq))
      (Table.nodup_toList m)).mpr ?_
    rintro ⟨member, score⟩
    rw [Std.ExtTreeMap.mem_toList_iff_getElem?_eq_some, hMem]
  refine List.Perm.eq_of_pairwise ?_ (sorted_entries m) (hAscending.imp le_of_lt)
    ((List.mergeSort_perm ..).trans hPerm.symm)
  rintro ⟨member, score⟩ ⟨other, otherScore⟩ hA hB hab hba
  obtain rfl : member = other := member_eq_of_placeOf (le_antisymm hab hba)
  have hFound := (hMem member score).mp (hPerm.mem_iff.mpr ((List.mergeSort_perm ..).mem_iff.mp hA))
  cases hFound.symm.trans ((hMem member otherScore).mp hB)
  rfl

end ScoreMap

namespace SkipList

/-- An operation gives the answer expected, and a well-formed list with the scores expected. -/
def Realizes {α : Type} (result : Option (α × SkipList)) (expected : α × ScoreMap) : Prop :=
  ∃ l towers, result = some (expected.1, l) ∧ l.WellFormed towers ∧ l.scores = expected.2

namespace WellFormed

variable {l : SkipList} {towers before after : List Tower} {t : Tower}

theorem entries_eq (h : l.WellFormed towers) : ScoreMap.entries l.scores = towers.map entry := by
  have hAscending : (towers.map entry).Pairwise fun a b => a.place < b.place :=
    List.pairwise_map.mpr h.ordered
  refine ScoreMap.entries_eq_of_ascending hAscending fun member score => ?_
  rw [h.scores member score, List.mem_map]
  simp [entry]

theorem mem_entries_iff (h : l.WellFormed towers) (member : String) (score : Score) :
    (member, score) ∈ ScoreMap.entries l.scores ↔ l.scores[member]? = some score := by
  rw [h.entries_eq, h.scores member score, List.mem_map]
  simp only [entry, Prod.mk.injEq]

theorem insertBy? (h : l.WellFormed towers) (draw : Coins → Height × Coins) (member : String)
    (score : Score) :
    Realizes (l.insertBy? draw member score) (ScoreMap.put l.scores member score) := by
  by_cases hScore : score = .nan
  · have hNaN : score.isNaN = true := Score.isNaN_iff.mpr hScore
    refine ⟨l, towers, ?_, h, ?_⟩
    · simp [SkipList.insertBy?, ScoreMap.put, hNaN]
    · simp [ScoreMap.put, hNaN]
  · have hNaN : score.isNaN = false := Bool.eq_false_iff.mpr (mt Score.isNaN_iff.mp hScore)
    cases hOld : l.scores[member]? with
    | none =>
      obtain ⟨l', towers', hInsert, hWellFormed, hScores⟩ := h.insertBy?_new hScore hOld draw
      refine ⟨l', towers', ?_, hWellFormed, ?_⟩
      · simp [ScoreMap.put, hNaN, hOld, hInsert]
      · simp [ScoreMap.put, hNaN, hOld, hScores]
    | some old =>
      by_cases hSame : old.same score = true
      · refine ⟨l, towers, ?_, h, ?_⟩
        · simp [SkipList.insertBy?, ScoreMap.put, hNaN, hOld, hSame]
        · simp [ScoreMap.put, hNaN, hOld, hSame]
      · obtain ⟨before, t, after, rfl, rfl, rfl⟩ := h.exists_split hOld
        obtain ⟨l', towers', hRescore, hWellFormed, hScores⟩ := h.rescore? hScore
        refine ⟨l', towers', ?_, hWellFormed, ?_⟩
        · simp [SkipList.insertBy?, ScoreMap.put, hNaN, hOld, hSame, hRescore]
        · simp [ScoreMap.put, hNaN, hOld, hSame, hScores]

theorem remove? (h : l.WellFormed towers) (member : String) :
    Realizes (l.remove? member) (ScoreMap.remove l.scores member) := by
  cases hScore : l.scores[member]? with
  | none =>
    have hAbsent : l.scores.contains member = false := by
      rw [Std.ExtTreeMap.contains_eq_isSome_getElem?, hScore]
      rfl
    refine ⟨l, towers, ?_, h, ?_⟩
    · rw [SkipList.remove?, hScore, ScoreMap.remove, hAbsent]
    · apply Std.ExtTreeMap.ext_getElem?
      intro k
      rw [ScoreMap.remove, Std.ExtTreeMap.getElem?_erase]
      split
      · rename_i hEq
        rw [← Std.LawfulEqOrd.eq_of_compare hEq, hScore]
      · rfl
  | some score =>
    obtain ⟨before, t, after, rfl, rfl, rfl⟩ := h.exists_split hScore
    obtain ⟨hSeek, hAfter⟩ := h.seek?_member
    obtain ⟨l', hDrop, hWellFormed, hScores⟩ := h.drop?
    have hPresent : l.scores.contains t.member = true := by
      rw [Std.ExtTreeMap.contains_eq_isSome_getElem?, hScore]
      rfl
    refine ⟨l', before ++ after, ?_, hWellFormed, hScores⟩
    rw [SkipList.remove?, hScore, ScoreMap.remove, hPresent]
    simp [hSeek, hAfter, hDrop]

theorem realizes_insert (h : l.WellFormed towers) (member : String) (score : Score) :
    Realizes (some (l.insert member score)) (ScoreMap.put l.scores member score) := by
  obtain ⟨l', towers', hInsert, hWellFormed, hScores⟩ :=
    h.insertBy? Coins.drawHeight member score
  refine ⟨l', towers', ?_, hWellFormed, hScores⟩
  rw [SkipList.insert, hInsert]
  rfl

theorem realizes_remove (h : l.WellFormed towers) (member : String) :
    Realizes (some (l.remove member)) (ScoreMap.remove l.scores member) := by
  obtain ⟨l', towers', hRemove, hWellFormed, hScores⟩ := h.remove? member
  refine ⟨l', towers', ?_, hWellFormed, hScores⟩
  rw [SkipList.remove, hRemove]
  rfl

end WellFormed
end SkipList
end Keyspace
