import Keyspace.SkipList.Range
import Keyspace.Proofs.SkipList.ScoreMap

/-! # Stretches: reading entries in order from a place on, and taking them out -/
namespace Keyspace
open Tower
set_option autoImplicit false

namespace SkipList

theorem chain?_eq {a : Arena} {level : Nat} {towers : List Tower} (h : a.Trails level towers)
    {fuel : Nat} (hFuel : towers.length ≤ fuel) :
    a.chain? level fuel (Arena.linkTo towers) = some (towers.map slot) := by
  induction towers generalizing fuel with
  | nil => cases fuel <;> rfl
  | cons t rest ih =>
    obtain ⟨hNext, hRest⟩ := Arena.Trails.cons_iff.mp h
    cases fuel with
    | zero => exact absurd hFuel (Nat.not_succ_le_zero _)
    | succ fuel =>
      have hChain := ih hRest (Nat.le_of_succ_le_succ hFuel)
      have hLink : Arena.linkTo (t :: rest) = some t.slot := rfl
      simp [hLink, Arena.chain?, hNext, hChain]

theorem mapM_nodes {a : Arena} {towers : List Tower} (h : ∀ t ∈ towers, a.Holds t) :
    ∃ nodes : List Node, (towers.map slot).mapM (fun s => a.nodes[s]?) = some nodes ∧
      nodes.map (fun node => (node.member, node.score)) = towers.map entry := by
  induction towers with
  | nil => exact ⟨[], rfl, rfl⟩
  | cons t rest ih =>
    obtain ⟨node, hNode, hMember, hScore, -⟩ := h t List.mem_cons_self
    obtain ⟨nodes, hNodes, hMap⟩ := ih fun u hu => h u (List.mem_cons_of_mem t hu)
    use node :: nodes
    constructor
    · simp [hNode, hNodes]
    · rw [List.map_cons, hMap, hMember, hScore, List.map_cons, entry]

namespace WellFormed

variable {l : SkipList} {towers before after : List Tower} {t : Tower}

theorem entriesAfter?_eq (h : l.WellFormed (before ++ after)) :
    l.entriesAfter? (pathTo before) = some (after.map entry) := by
  have hTrails := (h.arena.linked.leads zero_lt_maxHeight).2
  rw [onLevel_zero after] at hTrails
  have hLength := h.arena.length_lt
  rw [List.length_append] at hLength
  have hFuel : after.length ≤ l.arena.nodes.size := by omega
  have hChain := chain?_eq hTrails hFuel
  obtain ⟨nodes, hNodes, hMap⟩ := mapM_nodes fun u hu =>
    h.arena.holds_of_mem (List.mem_append_right before hu)
  simp [entriesAfter?, after?_pathTo h.arena.linked, Arena.nodesFrom?, hChain, hNodes, hMap]

theorem toList?_eq (h : l.WellFormed towers) :
    l.toList? = some (ScoreMap.entries l.scores) := by
  have hPath : l.entriesAfter? [Arena.headSlot] = l.entriesAfter? (pathTo []) := rfl
  rw [toList?, hPath, h.entries_eq]
  rw [← List.nil_append towers] at h
  exact h.entriesAfter?_eq

theorem seek?_of_rates (h : l.WellFormed (before ++ after)) {test : Node → Bool}
    (hPass : ∀ u ∈ before, l.arena.Rates test u true)
    (hFail : ∀ u ∈ after, l.arena.Rates test u false) :
    seek? l.arena l.level test = some (pathTo before) := by
  have hLength := h.arena.length_lt
  rw [List.length_append] at hLength
  refine seek?_eq h.arena.linked hPass hFail (by omega) h.level_le ?_
  intro u hu
  rw [h.level]
  exact height_le_top (List.mem_append_left after hu)

/-- A test on scores and members that holds up to a place is what seeks that place. -/
theorem seek?_takeWhile (h : l.WellFormed towers) {test : Node → Bool} {below : Tower → Bool}
    (hTest : ∀ t ∈ towers, ∀ node : Node, node.member = t.member → node.score = t.score →
      test node = below t)
    (hBelow : ∀ t ∈ towers, ∀ u ∈ towers, t.place < u.place → below u = true → below t = true) :
    seek? l.arena l.level test = some (pathTo (towers.takeWhile below)) := by
  have hSplit : towers.takeWhile below ++ towers.dropWhile below = towers :=
    List.takeWhile_append_dropWhile
  have hParted : l.WellFormed (towers.takeWhile below ++ towers.dropWhile below) := hSplit.symm ▸ h
  refine hParted.seek?_of_rates ?_ ?_
  · intro t ht
    have hMem : t ∈ towers := (List.takeWhile_sublist below).subset ht
    have hTrue : below t = true := List.mem_takeWhile_imp ht
    exact hTrue ▸ rates_of_holds (h.arena.holds_of_mem hMem) (hTest t hMem)
  · intro t ht
    have hMem : t ∈ towers := (List.dropWhile_sublist below).subset ht
    have hFalse := h.ordered.dropWhile_eq_false hBelow t ht
    exact hFalse ▸ rates_of_holds (h.arena.holds_of_mem hMem) (hTest t hMem)

theorem scan?_eq (h : l.WellFormed towers) {test : Node → Bool}
    {below within : ScoredMember → Bool} {offset count : Nat}
    (hTest : ∀ t ∈ towers, ∀ node : Node, node.member = t.member → node.score = t.score →
      test node = below t.entry)
    (hBelow : ∀ t ∈ towers, ∀ u ∈ towers, t.place < u.place → below u.entry = true →
      below t.entry = true) :
    l.scan? test within offset count =
      some (ScoreMap.select l.scores below within offset count) := by
  have hSeek : seek? l.arena l.level test =
      some (pathTo (towers.takeWhile fun t => below t.entry)) := h.seek?_takeWhile hTest hBelow
  have hSplit : towers.takeWhile (fun t => below t.entry) ++
      towers.dropWhile (fun t => below t.entry) = towers := List.takeWhile_append_dropWhile
  have hEntries := entriesAfter?_eq (l := l) (hSplit.symm ▸ h)
  have hDrop : (towers.map entry).dropWhile below =
      (towers.dropWhile fun t => below t.entry).map entry := List.dropWhile_map ..
  simp [scan?, hSeek, hEntries, ScoreMap.select, h.entries_eq, hDrop]

theorem lt_of_place_lt (h : l.WellFormed towers) (minScore : Score) :
    ∀ t ∈ towers, ∀ u ∈ towers, t.place < u.place → u.score.lt minScore = true →
      t.score.lt minScore = true := by
  intro t ht u _ hPlace hLt
  obtain ⟨-, hMin, hPosition⟩ := Score.lt_iff.mp hLt
  refine Score.lt_iff.mpr ⟨h.number t ht, hMin, lt_of_le_of_lt ?_ hPosition⟩
  rcases placeOf_lt_iff.mp hPlace with hLess | ⟨hEq, -⟩
  · exact hLess.le
  · exact hEq.le

theorem range?_eq (h : l.WellFormed towers) (minScore maxScore : Score) (offset count : Nat) :
    l.range? minScore maxScore offset count = some (ScoreMap.select l.scores
      (fun entry => entry.2.lt minScore) (fun entry => entry.2.le maxScore) offset count) :=
  h.scan?_eq (fun t _ node _ hScore => by rw [hScore, entry]) (h.lt_of_place_lt minScore)

theorem precedes_of_place_lt (h : l.WellFormed towers) (minScore : Score) (minMember : String) :
    ∀ t ∈ towers, ∀ u ∈ towers, t.place < u.place →
      (u.score.lt minScore || (u.score.same minScore && u.member < minMember)) = true →
      (t.score.lt minScore || (t.score.same minScore && t.member < minMember)) = true := by
  intro t ht u hu hPlace hBelow
  by_cases hMin : minScore = .nan
  · simp [Score.lt, Score.same, Score.compareBy_iff, hMin] at hBelow
  · have hPrecedes : ∀ v ∈ towers,
        ((v.score.lt minScore || (v.score.same minScore && v.member < minMember)) = true ↔
          v.place < placeOf minScore minMember) := fun v hv =>
      @ScoredMember.precedes_iff v.entry minScore minMember (h.number v hv) hMin
    rw [hPrecedes u hu] at hBelow
    rw [hPrecedes t ht]
    exact lt_trans hPlace hBelow

theorem query?_eq (h : l.WellFormed towers) (minScore : Score) (minMember : String)
    (maxScore : Score) (maxMember : String) (offset count : Nat) :
    l.query? minScore minMember maxScore maxMember offset count = some (ScoreMap.select l.scores
      (fun entry => entry.2.lt minScore || (entry.2.same minScore && entry.1 < minMember))
      (fun entry => entry.2.lt maxScore || (entry.2.same maxScore && entry.1 ≤ maxMember))
      offset count) :=
  h.scan?_eq (fun t _ node hMember hScore => by rw [Node.precedes, hMember, hScore, entry])
    (h.precedes_of_place_lt minScore minMember)

theorem pathTo_concat (before : List Tower) (t : Tower) :
    pathTo (before ++ [t]) =
      List.replicate t.height.val t.slot ++ (pathTo before).drop t.height.val := by
  have hMax := t.height.le_max
  apply List.ext_getElem?
  intro level
  by_cases hLevel : level < maxHeight
  · rw [getElem?_pathTo _ hLevel, lastOn, onLevel_append, onLevel_cons]
    by_cases hTower : level < t.height.val
    · rw [if_pos hTower, List.getElem?_append_left (by simpa using hTower),
        List.getElem?_replicate_of_lt hTower]
      simp [onLevel]
    · rw [if_neg hTower, List.getElem?_append_right (by simpa using Nat.le_of_not_lt hTower)]
      have hIndex : t.height.val + (level - t.height.val) = level := by omega
      rw [List.length_replicate, List.getElem?_drop, hIndex, getElem?_pathTo _ hLevel]
      simp [onLevel, lastOn]
  · have hLeft : (pathTo (before ++ [t])).length ≤ level := by
      simpa [pathTo] using Nat.le_of_not_lt hLevel
    rw [List.getElem?_eq_none hLeft, List.getElem?_eq_none]
    simp only [List.length_append, List.length_replicate, List.length_drop, pathTo, List.length_map,
      List.length_range]
    omega

theorem node_of_tower (h : l.WellFormed (before ++ t :: after)) :
    ∃ node, l.arena.nodes[t.slot]? = some node ∧ node.score = t.score ∧
      node.height = t.height.val ∧ node.forward[0]? = some (Arena.linkTo after) := by
  obtain ⟨node, hNode, -, hScore, hHeight⟩ := h.arena.holds_of_mem (t := t) (by simp)
  have hNext := h.next?_tower
  rw [Arena.next?, hNode] at hNext
  exact ⟨node, hNode, hScore, hHeight, hNext⟩

theorem skip?_eq (h : l.WellFormed (before ++ after)) (offset : Nat) :
    skip? l.arena offset (pathTo before) (Arena.linkTo after) =
      some (pathTo (before ++ after.take offset), Arena.linkTo (after.drop offset)) := by
  induction offset generalizing before after with
  | zero => simp [skip?]
  | succ offset ih =>
    cases after with
    | nil => simp [skip?, Arena.linkTo]
    | cons t rest =>
      obtain ⟨node, hNode, -, hHeight, hForward⟩ := h.node_of_tower
      have hMoved := h
      rw [List.append_cons] at hMoved
      have hRest := ih hMoved
      rw [pathTo_concat, List.append_assoc] at hRest
      simpa [skip?, Arena.linkTo, hNode, hHeight, hForward] using hRest

/-- The path stays good for node after node: what is taken out comes after it. -/
theorem dropWhile?_eq (h : l.WellFormed (before ++ after)) (maxScore : Score) (count : Nat) :
    Realizes (dropWhile? maxScore (pathTo before) count (Arena.linkTo after) l)
      (let dropped := ((after.takeWhile fun t => t.score.le maxScore).take count).map entry
      (dropped.length, ScoreMap.eraseAll l.scores dropped)) := by
  induction count generalizing l after with
  | zero => exact ⟨l, before ++ after, by simp [dropWhile?], h, by simp [ScoreMap.eraseAll]⟩
  | succ count ih =>
    cases after with
    | nil => exact ⟨l, before ++ [], by simp [dropWhile?, Arena.linkTo], h, rfl⟩
    | cons t rest =>
      obtain ⟨node, hNode, hScore, -, hForward⟩ := h.node_of_tower
      have hLink : Arena.linkTo (t :: rest) = some t.slot := rfl
      cases hWithin : t.score.le maxScore with
      | false =>
        refine ⟨l, before ++ t :: rest, ?_, h, ?_⟩
        · simp [dropWhile?, hLink, hNode, hScore, hWithin]
        · simp [hWithin, ScoreMap.eraseAll]
      | true =>
        obtain ⟨l', hDrop, hWellFormed, hScores⟩ := h.drop?
        obtain ⟨l'', towers, hRest, hWellFormed', hScores'⟩ := ih hWellFormed
        refine ⟨l'', towers, ?_, hWellFormed', ?_⟩
        · simp [dropWhile?, hLink, hNode, hScore, hWithin, hForward, hDrop, hRest]
        · rw [hScores', hScores]
          simp [hWithin, ScoreMap.eraseAll, entry]

theorem removeRange? (h : l.WellFormed towers) (minScore maxScore : Score) (offset count : Nat) :
    Realizes (l.removeRange? minScore maxScore offset count)
      (ScoreMap.removeRange l.scores minScore maxScore offset count) := by
  have hSeek : seek? l.arena l.level (fun node => node.score.lt minScore) =
      some (pathTo (towers.takeWhile fun t => t.score.lt minScore)) :=
    h.seek?_takeWhile (fun t _ node _ hScore => by rw [hScore]) (h.lt_of_place_lt minScore)
  have hSplit : towers.takeWhile (fun t => t.score.lt minScore) ++
      towers.dropWhile (fun t => t.score.lt minScore) = towers := List.takeWhile_append_dropWhile
  have hFrom : l.WellFormed (towers.takeWhile (fun t => t.score.lt minScore) ++
      towers.dropWhile (fun t => t.score.lt minScore)) := hSplit.symm ▸ h
  -- The path moves past `offset` towers; what goes comes after them.
  have hSkip := hFrom.skip?_eq offset
  rw [← List.take_append_drop offset (towers.dropWhile fun t => t.score.lt minScore),
    ← List.append_assoc] at hFrom
  obtain ⟨l', towers', hDrop, hWellFormed, hScores⟩ := hFrom.dropWhile?_eq maxScore count
  have hSelect : ((((towers.dropWhile fun t => t.score.lt minScore).drop offset).takeWhile
      fun t => t.score.le maxScore).take count).map entry = ScoreMap.select l.scores
        (fun entry => entry.2.lt minScore) (fun entry => entry.2.le maxScore) offset count := by
    rw [ScoreMap.select, h.entries_eq, List.dropWhile_map, ← List.map_drop, List.takeWhile_map,
      ← List.map_take]
    rfl
  have hAfter := after?_pathTo (hSplit.symm ▸ h.arena.linked)
  rw [hSelect] at hDrop hScores
  refine ⟨l', towers', ?_, hWellFormed, hScores⟩
  simp [SkipList.removeRange?, hSeek, hAfter, hSkip, hDrop, ScoreMap.removeRange]

theorem realizes_removeRange (h : l.WellFormed towers) (minScore maxScore : Score)
    (offset count : Nat) : Realizes (some (l.removeRange minScore maxScore offset count))
      (ScoreMap.removeRange l.scores minScore maxScore offset count) := by
  obtain ⟨l', towers', hRemove, hWellFormed, hScores⟩ :=
    h.removeRange? minScore maxScore offset count
  refine ⟨l', towers', ?_, hWellFormed, hScores⟩
  rw [SkipList.removeRange, hRemove]
  rfl

end WellFormed
end SkipList
end Keyspace
