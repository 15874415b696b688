import Keyspace.Proofs.SkipList.Selection

/-! # Paging: queries that each go on after the last entry of the one before -/
namespace Keyspace
open Tower
set_option autoImplicit false

namespace ScoreMap

variable {m : ScoreMap} {below within : ScoredMember → Bool}

/-- What comes after an entry of a selection is selected by that entry for a bound, less itself. -/
theorem select_after (hNumber : ∀ entry ∈ entries m, entry.2 ≠ .nan)
    {done rest : List ScoredMember} {last : ScoredMember}
    (h : ((entries m).dropWhile below).takeWhile within = done ++ last :: rest) (count : Nat) :
    m.select (fun entry => entry.2.lt last.2 || (entry.2.same last.2 && entry.1 < last.1)) within 1
      count = rest.take count := by
  rw [List.append_cons] at h
  obtain ⟨beyond, hFound⟩ := List.takeWhile_prefix within (l := (entries m).dropWhile below)
  rw [h, List.append_assoc] at hFound
  have hRest : (rest ++ beyond).takeWhile within = rest := by
    have hWithin : ∀ entry ∈ done ++ [last], within entry = true := by
      intro entry hEntry
      apply List.mem_takeWhile_imp (l := (entries m).dropWhile below)
      exact h ▸ List.mem_append_left rest hEntry
    rw [← hFound, List.takeWhile_append_of_pos hWithin] at h
    exact List.append_cancel_left h
  let earlier : List ScoredMember := (entries m).takeWhile below ++ done
  have hEntries : entries m = earlier ++ last :: (rest ++ beyond) := by
    calc entries m
        = (entries m).takeWhile below ++ (entries m).dropWhile below :=
          List.takeWhile_append_dropWhile.symm
      _ = earlier ++ last :: (rest ++ beyond) := by simp [← hFound, earlier]
  have hAscending := m.ascending_entries
  rw [hEntries] at hAscending hNumber
  obtain ⟨-, -, hEarlier⟩ := List.pairwise_append.mp hAscending
  have hLast : last.2 ≠ .nan := hNumber last (by simp)
  have hPrecedes : ∀ entry ∈ earlier,
      (entry.2.lt last.2 || (entry.2.same last.2 && entry.1 < last.1)) = true := by
    intro entry hEntry
    have hEntryNumber := hNumber entry (List.mem_append_left _ hEntry)
    exact (ScoredMember.precedes_iff hEntryNumber hLast).mpr
      (hEarlier entry hEntry last List.mem_cons_self)
  have hSelf : ¬ (last.2.lt last.2 || (last.2.same last.2 && last.1 < last.1)) = true := by
    rw [ScoredMember.precedes_iff hLast hLast]
    exact lt_irrefl _
  rw [select, hEntries, List.dropWhile_append_of_pos hPrecedes,
    List.dropWhile_cons_of_neg (by exact hSelf), List.drop_one, List.tail_cons, hRest]

end ScoreMap

namespace SkipList

/-- The pages from one on, each a query that goes on after the last entry of the page before it.
They end where one is empty, if they do so before the fuel is used up. -/
def pagesFrom? (l : SkipList) (maxScore : Score) (maxMember : String) (limit : Nat) :
    (fuel : Nat) → List ScoredMember → Option (List (List ScoredMember))
  | 0, _ => none
  | fuel + 1, page =>
    match page.getLast? with
    | none => some []
    | some last => do
      let next ← l.query? last.2 last.1 maxScore maxMember 1 limit
      let pages ← pagesFrom? l maxScore maxMember limit fuel next
      some (page :: pages)

def pages? (l : SkipList) (minScore : Score) (minMember : String) (maxScore : Score)
    (maxMember : String) (limit fuel : Nat) : Option (List (List ScoredMember)) := do
  let first ← l.query? minScore minMember maxScore maxMember 0 limit
  l.pagesFrom? maxScore maxMember limit fuel first

variable {l : SkipList} {towers : List Tower}

/-- If each page is what comes after the one before it in some list, the pages go on to its end. -/
theorem pagesFrom?_eq {maxScore : Score} {maxMember : String} {limit : Nat} (hLimit : 1 ≤ limit)
    {selected : List ScoredMember}
    (hNext : ∀ done last rest, selected = done ++ last :: rest →
      l.query? last.2 last.1 maxScore maxMember 1 limit = some (rest.take limit))
    (done : List ScoredMember) {rest : List ScoredMember} (hSelected : selected = done ++ rest) :
    ∃ pages, pages.flatten = rest ∧ (∀ page ∈ pages, page ≠ [] ∧ page.length ≤ limit) ∧
      ∀ fuel, pages.length < fuel →
        l.pagesFrom? maxScore maxMember limit fuel (rest.take limit) = some pages := by
  -- on how many entries are left, of which a page that is not empty takes some
  induction hLength : rest.length using Nat.strong_induction_on generalizing done rest with
  | h length ih =>
    rcases List.eq_nil_or_concat (rest.take limit) with hEmpty | ⟨first, last, hPage⟩
    · have hRest : rest = [] := (List.take_eq_nil_iff.mp hEmpty).resolve_left (by omega)
      refine ⟨[], hRest.symm, by simp, ?_⟩
      intro fuel hFuel
      obtain ⟨fuel, rfl⟩ := Nat.exists_eq_add_one_of_ne_zero (Nat.ne_of_gt hFuel)
      rw [hEmpty, pagesFrom?, List.getLast?_nil]
    · rw [List.concat_eq_append] at hPage
      have hSplit : rest = (first ++ [last]) ++ rest.drop limit := by
        rw [← hPage, List.take_append_drop]
      have hShorter : (rest.drop limit).length < length := by
        have hParts := congrArg List.length hSplit
        simp only [List.length_append, List.length_singleton] at hParts
        omega
      have hDone : selected = (done ++ first) ++ last :: rest.drop limit := by
        rw [hSelected, List.append_assoc, List.append_cons first, ← hSplit]
      obtain ⟨pages, hFlatten, hPages, hFrom⟩ :=
        ih _ hShorter ((done ++ first) ++ [last]) (hDone.trans (List.append_cons ..)) rfl
      refine ⟨rest.take limit :: pages, ?_, ?_, ?_⟩
      · rw [List.flatten_cons, hFlatten, List.take_append_drop]
      · intro page hMem
        rcases List.mem_cons.mp hMem with rfl | hMem
        · exact ⟨by simp [hPage], List.length_take_le ..⟩
        · exact hPages page hMem
      · intro fuel hFuel
        obtain ⟨fuel, rfl⟩ := Nat.exists_eq_add_one_of_ne_zero (Nat.ne_zero_of_lt hFuel)
        have hLast : (rest.take limit).getLast? = some last := by
          rw [hPage, List.getLast?_concat]
        have hMore := hFrom fuel (Nat.lt_of_succ_lt_succ hFuel)
        simp [pagesFrom?, hLast, hNext _ _ _ hDone, hMore]

theorem WellFormed.number_of_mem_entries (h : l.WellFormed towers) :
    ∀ entry ∈ ScoreMap.entries l.scores, entry.2 ≠ .nan := by
  intro entry hEntry
  rw [h.entries_eq] at hEntry
  obtain ⟨t, ht, rfl⟩ := List.mem_map.mp hEntry
  exact h.number t ht

theorem WellFormed.query?_after (h : l.WellFormed towers) {below : ScoredMember → Bool}
    {maxScore : Score} {maxMember : String} {done rest : List ScoredMember} {last : ScoredMember}
    (hSelected : ((ScoreMap.entries l.scores).dropWhile below).takeWhile (fun entry =>
      entry.2.lt maxScore || (entry.2.same maxScore && entry.1 ≤ maxMember)) = done ++ last :: rest)
    (limit : Nat) :
    l.query? last.2 last.1 maxScore maxMember 1 limit = some (rest.take limit) := by
  rw [h.query?_eq, ScoreMap.select_after h.number_of_mem_entries hSelected]

/-- Paging ends, and the pages after one another are what one query has that may find all: each
entry within the bounds once, in order. -/
theorem pages?_flatten (h : l.Reachable) (minScore : Score) (minMember : String)
    (maxScore : Score) (maxMember : String) {limit : Nat} (hLimit : 1 ≤ limit) :
    ∃ pages, (∀ fuel, pages.length < fuel →
        l.pages? minScore minMember maxScore maxMember limit fuel = some pages) ∧
      (∀ count, l.size ≤ count →
        l.query? minScore minMember maxScore maxMember 0 count = some pages.flatten) ∧
      pages.flatten.Pairwise ScoredMember.before ∧
      ∀ page ∈ pages, page ≠ [] ∧ page.length ≤ limit := by
  obtain ⟨towers, hWellFormed⟩ := h.sound
  obtain ⟨pages, hFlatten, hPages, hFrom⟩ :=
    pagesFrom?_eq hLimit (fun _ _ _ hSelected => hWellFormed.query?_after hSelected limit) []
      (List.nil_append _).symm
  have hQuery : ∀ count, l.query? minScore minMember maxScore maxMember 0 count =
      some (pages.flatten.take count) := by
    intro count
    rw [hWellFormed.query?_eq, hFlatten]
    rfl
  have hSub : pages.flatten.Sublist (ScoreMap.entries l.scores) := by
    rw [hFlatten]
    exact (List.takeWhile_sublist _).trans (List.dropWhile_sublist _)
  have hLength : pages.flatten.length ≤ l.size := by
    have hEntries := hSub.length_le
    rwa [ScoreMap.length_entries] at hEntries
  refine ⟨pages, ?_, ?_, ?_, hPages⟩
  · intro fuel hFuel
    rw [pages?, hQuery, hFlatten]
    exact hFrom fuel hFuel
  · intro count hCount
    rw [hQuery, List.take_of_length_le (Nat.le_trans hLength hCount)]
  · rw [hWellFormed.entries_eq] at hSub
    exact hWellFormed.ascending.sublist hSub

/-- Four members of one score, after one of a lower score. -/
def fourTied : SkipList :=
  ((empty default).run [.insert "a" .zero, .insert "b" .zero, .insert "c" .zero, .insert "d" .zero,
    .insert "e" .negInfinity]).2

/-- The first page of two ends within the tie, which the upper bound parts. -/
theorem pages?_flatten_ties :
    fourTied.Reachable ∧ 1 ≤ 2 ∧
      fourTied.pages? .nan "" .zero "c" 2 3 =
        some [[("e", .negInfinity), ("a", .zero)], [("b", .zero), ("c", .zero)]] ∧
      fourTied.query? .nan "" .zero "c" 0 (2 ^ 64 - 1) =
        some [("e", .negInfinity), ("a", .zero), ("b", .zero), ("c", .zero)] := by
  have hReachable : fourTied.Reachable := .drawn default _
  obtain ⟨pages, -, hQuery, -, -⟩ :=
    pages?_flatten hReachable .nan "" .zero "c" (by decide : 1 ≤ 2)
  have hEnds : fourTied.query? .nan "" .zero "c" 0 5 =
      some [("e", .negInfinity), ("a", .zero), ("b", .zero), ("c", .zero)] := rfl
  have hSize : fourTied.size = 5 := rfl
  have hTwo : fourTied.pages? .nan "" .zero "c" 2 3 =
      some [[("e", .negInfinity), ("a", .zero)], [("b", .zero), ("c", .zero)]] := rfl
  have hFlatten := (hQuery 5 (by omega)).symm.trans hEnds
  refine ⟨hReachable, by decide, hTwo, ?_⟩
  rw [hQuery _ (by omega), hFlatten]

end SkipList
end Keyspace
