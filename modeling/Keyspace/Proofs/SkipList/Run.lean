import Keyspace.Proofs.SkipList.Range

/-! # Runs: whatever operations follow one another, a skip list answers as a map

The heights of its nodes are arbitrary: they change how the list is linked, and nothing that is
answered. -/
namespace Keyspace
open Tower
set_option autoImplicit false

inductive Operation where
  | insert (member : String) (score : Score)
  | remove (member : String)
  | removeRange (minScore maxScore : Score) (offset count : Nat)
  | score (member : String)
  | size
  | isEmpty
  | entries
  | range (minScore maxScore : Score) (offset count : Nat)
  | query (minScore : Score) (minMember : String) (maxScore : Score) (maxMember : String)
      (offset count : Nat)

inductive Answer where
  | flag (result : Bool)
  | number (result : Nat)
  | score (result : Option Score)
  | entries (result : List ScoredMember)

namespace ScoreMap

def perform (m : ScoreMap) : Operation → Answer × ScoreMap
  | .insert member score => (put m member score).map .flag id
  | .remove member => (remove m member).map .flag id
  | .removeRange minScore maxScore offset count =>
    (removeRange m minScore maxScore offset count).map .number id
  | .score member => (.score m[member]?, m)
  | .size => (.number m.size, m)
  | .isEmpty => (.flag m.isEmpty, m)
  | .entries => (.entries (entries m), m)
  | .range minScore maxScore offset count =>
    (.entries (select m (fun entry => entry.2.lt minScore) (fun entry => entry.2.le maxScore)
      offset count), m)
  | .query minScore minMember maxScore maxMember offset count =>
    (.entries (select m
      (fun entry => entry.2.lt minScore || (entry.2.same minScore && entry.1 < minMember))
      (fun entry => entry.2.lt maxScore || (entry.2.same maxScore && entry.1 ≤ maxMember))
      offset count), m)

def run (m : ScoreMap) : List Operation → List Answer × ScoreMap
  | [] => ([], m)
  | operation :: rest =>
    let (answer, m) := perform m operation
    let (answers, m) := run m rest
    (answer :: answers, m)

end ScoreMap

namespace SkipList

/-- One operation, which draws a height for a member that is new. -/
def performBy? (draw : Coins → Height × Coins) (l : SkipList) :
    Operation → Option (Answer × SkipList)
  | .insert member score => (l.insertBy? draw member score).map (Prod.map Answer.flag id)
  | .remove member => (l.remove? member).map (Prod.map Answer.flag id)
  | .removeRange minScore maxScore offset count =>
    (l.removeRange? minScore maxScore offset count).map (Prod.map Answer.number id)
  | .score member => some (.score (l.score? member), l)
  | .size => some (.number l.size, l)
  | .isEmpty => some (.flag l.isEmpty, l)
  | .entries => l.toList?.map fun found => (.entries found, l)
  | .range minScore maxScore offset count =>
    (l.range? minScore maxScore offset count).map fun found => (.entries found, l)
  | .query minScore minMember maxScore maxMember offset count =>
    (l.query? minScore minMember maxScore maxMember offset count).map fun found =>
      (.entries found, l)

/-- One operation, which has a height at hand for a member that is new. -/
def perform? (l : SkipList) (height : Height) (operation : Operation) :
    Option (Answer × SkipList) :=
  l.performBy? (fun coins => (height, coins)) operation

/-- One operation after another, the `i`-th with the height `heights i`. -/
def run? (heights : Nat → Height) (l : SkipList) : List Operation → Option (List Answer × SkipList)
  | [] => some ([], l)
  | operation :: rest => do
    let (answer, l) ← l.perform? (heights 0) operation
    let (answers, l) ← run? (fun i => heights (i + 1)) l rest
    some (answer :: answers, l)

def perform (l : SkipList) : Operation → Answer × SkipList
  | .insert member score => (l.insert member score).map .flag id
  | .remove member => (l.remove member).map .flag id
  | .removeRange minScore maxScore offset count =>
    (l.removeRange minScore maxScore offset count).map .number id
  | .score member => (.score (l.score? member), l)
  | .size => (.number l.size, l)
  | .isEmpty => (.flag l.isEmpty, l)
  | .entries => (.entries l.toList, l)
  | .range minScore maxScore offset count => (.entries (l.range minScore maxScore offset count), l)
  | .query minScore minMember maxScore maxMember offset count =>
    (.entries (l.query minScore minMember maxScore maxMember offset count), l)

def run (l : SkipList) : List Operation → List Answer × SkipList
  | [] => ([], l)
  | operation :: rest =>
    let (answer, l) := l.perform operation
    let (answers, l) := run l rest
    (answer :: answers, l)

theorem Realizes.map {α β : Type} {result : Option (α × SkipList)} {expected : α × ScoreMap}
    (h : Realizes result expected) (f : α → β) :
    Realizes (result.map (Prod.map f id)) (expected.map f id) := by
  obtain ⟨l, towers, rfl, hWellFormed, hScores⟩ := h
  exact ⟨l, towers, rfl, hWellFormed, hScores⟩

namespace WellFormed

variable {l : SkipList} {towers : List Tower}

theorem realizes_read {α : Type} (h : l.WellFormed towers) {result expected : α}
    (hAnswer : result = expected) : Realizes (some (result, l)) (expected, l.scores) :=
  ⟨l, towers, by rw [hAnswer], h, rfl⟩

theorem performBy? (h : l.WellFormed towers) (draw : Coins → Height × Coins)
    (operation : Operation) :
    Realizes (l.performBy? draw operation) (ScoreMap.perform l.scores operation) := by
  cases operation with
  | insert member score => exact (h.insertBy? draw member score).map Answer.flag
  | remove member => exact (h.remove? member).map Answer.flag
  | removeRange minScore maxScore offset count =>
    exact (h.removeRange? minScore maxScore offset count).map Answer.number
  | score member => exact h.realizes_read rfl
  | size => exact h.realizes_read rfl
  | isEmpty => exact h.realizes_read rfl
  | entries =>
    rw [SkipList.performBy?, h.toList?_eq]
    exact h.realizes_read rfl
  | range minScore maxScore offset count =>
    rw [SkipList.performBy?, h.range?_eq]
    exact h.realizes_read rfl
  | query minScore minMember maxScore maxMember offset count =>
    rw [SkipList.performBy?, h.query?_eq]
    exact h.realizes_read rfl

theorem perform? (h : l.WellFormed towers) (height : Height) (operation : Operation) :
    Realizes (l.perform? height operation) (ScoreMap.perform l.scores operation) :=
  h.performBy? _ operation

theorem run? (h : l.WellFormed towers) (heights : Nat → Height) (operations : List Operation) :
    Realizes (l.run? heights operations) (ScoreMap.run l.scores operations) := by
  induction operations generalizing l towers heights with
  | nil => exact h.realizes_read rfl
  | cons operation rest ih =>
    obtain ⟨l', towers', hPerform, hWellFormed, hScores⟩ := h.perform? (heights 0) operation
    obtain ⟨l'', towers'', hRun, hWellFormed', hScores'⟩ := ih hWellFormed fun i => heights (i + 1)
    rw [hScores] at hRun hScores'
    refine ⟨l'', towers'', ?_, hWellFormed', hScores'⟩
    simp [SkipList.run?, hPerform, hRun, ScoreMap.run]

/-- What meets no end, as nothing does here, is what the coins decide. -/
theorem performBy?_drawHeight (h : l.WellFormed towers) (operation : Operation) :
    l.performBy? Coins.drawHeight operation = some (l.perform operation) := by
  cases operation with
  | insert member score =>
    obtain ⟨next, -, hInsert, -⟩ := h.insertBy? Coins.drawHeight member score
    simp only [SkipList.performBy?, SkipList.perform, SkipList.insert, hInsert]
    rfl
  | remove member =>
    obtain ⟨next, -, hRemove, -⟩ := h.remove? member
    simp only [SkipList.performBy?, SkipList.perform, SkipList.remove, hRemove]
    rfl
  | removeRange minScore maxScore offset count =>
    obtain ⟨next, -, hRemove, -⟩ := h.removeRange? minScore maxScore offset count
    simp only [SkipList.performBy?, SkipList.perform, SkipList.removeRange, hRemove]
    rfl
  | score | size | isEmpty => rfl
  | entries =>
    simp only [SkipList.performBy?, SkipList.perform, toList, h.toList?_eq]
    rfl
  | range minScore maxScore offset count =>
    simp only [SkipList.performBy?, SkipList.perform, range, h.range?_eq]
    rfl
  | query minScore minMember maxScore maxMember offset count =>
    simp only [SkipList.performBy?, SkipList.perform, query, h.query?_eq]
    rfl

theorem perform (h : l.WellFormed towers) (operation : Operation) :
    Realizes (some (l.perform operation)) (ScoreMap.perform l.scores operation) :=
  h.performBy?_drawHeight operation ▸ h.performBy? Coins.drawHeight operation

theorem run (h : l.WellFormed towers) (operations : List Operation) :
    Realizes (some (l.run operations)) (ScoreMap.run l.scores operations) := by
  induction operations generalizing l towers with
  | nil => exact h.realizes_read rfl
  | cons operation rest ih =>
    obtain ⟨l', towers', hPerform, hWellFormed, hScores⟩ := h.perform operation
    obtain ⟨l'', towers'', hRun, hWellFormed', hScores'⟩ := ih hWellFormed
    rw [hScores] at hRun hScores'
    refine ⟨l'', towers'', ?_, hWellFormed', hScores'⟩
    rw [Option.some.injEq] at hPerform hRun ⊢
    simp [SkipList.run, hPerform, hRun, ScoreMap.run]

theorem ascending (h : l.WellFormed towers) :
    (towers.map entry).Pairwise ScoredMember.before := by
  refine List.pairwise_map.mpr (h.ordered.imp_of_mem ?_)
  intro t u ht hu hPlace
  exact (ScoredMember.before_iff (h.number t ht) (h.number u hu)).mpr hPlace

theorem chain?_head (h : l.WellFormed towers) {level : Nat} (hLevel : level < maxHeight) :
    ∃ first, l.arena.next? Arena.headSlot level = some first ∧
      l.arena.chain? level l.arena.nodes.size first =
        some ((onLevel level towers).map slot) := by
  have hLinked := h.arena.linked
  have hTrails : l.arena.Trails level (onLevel level towers) :=
    (Arena.Linked.leads (List.nil_append towers ▸ hLinked) hLevel).2
  have hLength : (onLevel level towers).length ≤ l.arena.nodes.size :=
    Nat.le_trans (List.length_filter_le ..) h.arena.length_lt.le
  exact ⟨_, hLinked.next?_head hLevel, chain?_eq hTrails hLength⟩

theorem next?_head_of_level_le (h : l.WellFormed towers) {level : Nat} (hUnused : l.level ≤ level)
    (hLevel : level < maxHeight) : l.arena.next? Arena.headSlot level = some none := by
  have hNone : onLevel level towers = [] := by
    apply onLevel_eq_nil
    intro t ht
    exact Nat.le_trans (height_le_top ht) (h.level ▸ hUnused)
  rw [h.arena.linked.next?_head hLevel, hNone]
  rfl

theorem sought (h : l.WellFormed towers) {member : String} {score : Score}
    (hScore : l.scores[member]? = some score) :
    ∃ path slot node, seek? l.arena l.level (fun node => node.precedes score member) = some path ∧
      after? l.arena path = some (some slot) ∧ l.arena.nodes[slot]? = some node ∧
      node.member = member := by
  obtain ⟨before, t, after, rfl, rfl, rfl⟩ := h.exists_split hScore
  obtain ⟨hSeek, hAfter⟩ := h.seek?_member
  obtain ⟨node, hNode, hMember, -⟩ := h.arena.holds_of_mem (t := t) (by simp)
  exact ⟨pathTo before, t.slot, node, hSeek, hAfter, hNode, hMember⟩

end WellFormed

/-- Every run is one of a finite map: whatever heights are given, or drawn, the answers are those
of the map, and the list holds what the map does, in ascending order. -/
theorem run?_answers (coins : Coins) (heights : Nat → Height) (operations : List Operation) :
    ∃ l, (empty coins).run? heights operations =
        some ((ScoreMap.run ∅ operations).1, l) ∧
      ((empty coins).run operations).1 = (ScoreMap.run ∅ operations).1 ∧
      l.scores = (ScoreMap.run ∅ operations).2 ∧
      l.toList = ScoreMap.entries l.scores ∧
      l.toList.Pairwise ScoredMember.before ∧
      ∀ member score,
        (member, score) ∈ l.toList ↔ l.scores[member]? = some score ∧ score ≠ .nan := by
  have hEmpty := wellFormed_empty coins
  obtain ⟨l, towers, hRun, hWellFormed, hScores⟩ := hEmpty.run? heights operations
  obtain ⟨l', towers', hDrawn, -⟩ := hEmpty.run operations
  have hList : l.toList = ScoreMap.entries l.scores := by
    rw [toList, hWellFormed.toList?_eq, Option.getD_some]
  refine ⟨l, hRun, ?_, hScores, hList, ?_, ?_⟩
  · rw [Option.some.inj hDrawn]
    rfl
  · rw [hList, hWellFormed.entries_eq]
    exact hWellFormed.ascending
  · intro member score
    rw [hList, hWellFormed.mem_entries_iff]
    exact ⟨fun h => ⟨h, hWellFormed.number_of_score h⟩, And.left⟩

/-- Every run ends, without leaving the arena, in a well-formed list. -/
theorem run?_wellFormed (coins : Coins) (heights : Nat → Height) (operations : List Operation) :
    ∃ answers l towers, (empty coins).run? heights operations = some (answers, l) ∧
      l.WellFormed towers ∧
      (towers.map entry).Pairwise ScoredMember.before ∧
      (∀ level < maxHeight, ∃ first, l.arena.next? Arena.headSlot level = some first ∧
        l.arena.chain? level l.arena.nodes.size first =
          some ((onLevel level towers).map slot)) ∧
      (∀ level < maxHeight, l.level ≤ level →
        l.arena.next? Arena.headSlot level = some none) ∧
      ∀ member score, l.scores[member]? = some score →
        ∃ path slot node,
          seek? l.arena l.level (fun node => node.precedes score member) = some path ∧
          after? l.arena path = some (some slot) ∧ l.arena.nodes[slot]? = some node ∧
          node.member = member := by
  obtain ⟨l, towers, hRun, hWellFormed, -⟩ :=
    (wellFormed_empty coins).run? heights operations
  refine ⟨_, l, towers, hRun, hWellFormed, hWellFormed.ascending, ?_, ?_, ?_⟩
  · intro level hLevel
    exact hWellFormed.chain?_head hLevel
  · intro level hLevel hUnused
    exact hWellFormed.next?_head_of_level_le hUnused hLevel
  · intro member score hScore
    exact hWellFormed.sought hScore

end SkipList
end Keyspace
