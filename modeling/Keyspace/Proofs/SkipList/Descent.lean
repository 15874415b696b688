import Keyspace.Proofs.SkipList.Selection

/-! # Descents: where a seek ends on each level, for any test that holds up to a node -/
namespace Keyspace
open Tower
set_option autoImplicit false

namespace Arena

/-- The slots that the head leads to along a level, in order. -/
def slotsOn? (a : Arena) (level : Nat) : Option (List Slot) := do
  a.chain? level a.nodes.size (← a.next? headSlot level)

def passes (a : Arena) (test : Node → Bool) (slot : Slot) : Bool := (a.nodes[slot]?).any test

theorem Holds.rates {a : Arena} {t : Tower} (h : a.Holds t) (test : Node → Bool) :
    a.Rates test t (a.passes test t.slot) := by
  obtain ⟨node, hNode, -⟩ := h
  exact ⟨node, hNode, by rw [passes, hNode, Option.any_some]⟩

end Arena

theorem Leading.takeWhile_eq {α : Type} {test : α → Bool} {xs : List α} (h : Leading test xs) :
    xs.takeWhile test = xs.filter test :=
  h.takeWhile_drop 0

namespace SkipList

/-- On each level in use the path ends at the last node that passes the test, or at the head if none
does, and on the others at the head. All these nodes stand on their levels, and what comes after the
lowest is the first node of all that fails. -/
structure SeekEnds (l : SkipList) (test : Node → Bool) (chain : Nat → List Slot) (path : Path) :
    Prop where
  length : path.length = maxHeight
  last : ∀ level < l.level, path[level]? =
    some (((chain level).filter (l.arena.passes test)).getLastD Arena.headSlot)
  unused : ∀ level, l.level ≤ level → level < maxHeight → path[level]? = some Arena.headSlot
  stands : ∀ level slot, path[level]? = some slot →
    ∃ node : Node, l.arena.nodes[slot]? = some node ∧ level < node.height
  next : after? l.arena path = some ((chain 0).find? (!l.arena.passes test ·))

variable {l : SkipList}

namespace WellFormed

variable {towers before after : List Tower}

theorem slotsOn?_eq (h : l.WellFormed towers) {level : Nat} (hLevel : level < maxHeight) :
    l.arena.slotsOn? level = some ((onLevel level towers).map slot) := by
  obtain ⟨first, hFirst, hChain⟩ := h.chain?_head hLevel
  rw [Arena.slotsOn?, hFirst]
  exact hChain

theorem stands_of_pathTo (h : l.WellFormed (before ++ after)) {level : Nat} {slot : Slot}
    (hSlot : (pathTo before)[level]? = some slot) :
    ∃ node, l.arena.nodes[slot]? = some node ∧ level < node.height := by
  obtain ⟨hLevel, -⟩ := List.getElem?_eq_some_iff.mp hSlot
  have hMax : level < maxHeight := by simpa [pathTo] using hLevel
  rw [getElem?_pathTo before hMax, Option.some.injEq] at hSlot
  subst hSlot
  have hHolds : l.arena.Holds (lastOn level before) := by
    apply h.arena.holds
    rw [List.append_nil, ← List.cons_append]
    exact List.mem_append_left after (Arena.lastOn_mem_cons level before)
  have hStands : level < (lastOn level before).height.val := by
    rcases lastOn_mem level before with hHead | ⟨-, hHeight⟩
    · rw [hHead]
      exact hMax
    · exact hHeight
  obtain ⟨node, hNode, -, -, hHeight⟩ := hHolds
  exact ⟨node, hNode, hHeight ▸ hStands⟩

theorem seekEnds (h : l.WellFormed towers) {test : Node → Bool}
    (hLeading : Leading (l.arena.passes test) (towers.map slot)) :
    ∃ path, seek? l.arena l.level test = some path ∧
      l.SeekEnds test (fun level => (onLevel level towers).map slot) path := by
  let below : Tower → Bool := fun t => l.arena.passes test t.slot
  have hBelow : Leading below towers := List.pairwise_map.mp hLeading
  have hBefore : towers.takeWhile below = towers.filter below := hBelow.takeWhile_eq
  have hSplit : towers.takeWhile below ++ towers.dropWhile below = towers :=
    List.takeWhile_append_dropWhile
  have hParted : l.WellFormed (towers.takeWhile below ++ towers.dropWhile below) := hSplit.symm ▸ h
  refine ⟨pathTo (towers.takeWhile below), hParted.seek?_of_rates ?_ ?_, ?_⟩
  · intro t ht
    have hTrue : below t = true := List.mem_takeWhile_imp ht
    exact hTrue ▸ (hParted.arena.holds_of_mem (List.mem_append_left _ ht)).rates test
  · intro t ht
    have hFalse : below t = false := by
      rw [hBelow.dropWhile_eq] at ht
      simpa using (List.mem_filter.mp ht).2
    exact hFalse ▸ (hParted.arena.holds_of_mem (List.mem_append_right _ ht)).rates test
  · constructor
    case length => simp [pathTo]
    case last =>
      intro level hLevel
      have hOn : ((onLevel level towers).map slot).filter (l.arena.passes test) =
          (onLevel level (towers.takeWhile below)).map slot := by
        rw [hBefore, List.filter_map, onLevel, onLevel, List.filter_comm]
        rfl
      rw [getElem?_pathTo _ (Nat.lt_of_lt_of_le hLevel h.level_le), hOn, lastOn]
      exact congrArg some List.getLastD_map.symm
    case unused =>
      intro level hUnused hLevel
      have hNone : onLevel level (towers.takeWhile below) = [] := by
        apply onLevel_eq_nil
        intro t ht
        have hMem := (List.takeWhile_sublist below).subset ht
        exact Nat.le_trans (height_le_top hMem) (h.level ▸ hUnused)
      rw [getElem?_pathTo _ hLevel, lastOn, hNone]
      rfl
    case stands => exact fun level slot hSlot => hParted.stands_of_pathTo hSlot
    case next =>
      have hFirst : towers.find? (!below ·) = (towers.dropWhile below).head? :=
        List.find?_not_eq_head?_dropWhile ..
      rw [after?_pathTo hParted.arena.linked, Arena.linkTo, ← hFirst, onLevel_zero, List.find?_map]
      rfl

/-- A test on scores and members that holds of whatever comes before what it holds of. -/
theorem leading_slots (h : l.WellFormed towers) {test : Node → Bool} {below : Tower → Bool}
    (hTest : ∀ t ∈ towers, ∀ node : Node, node.member = t.member → node.score = t.score →
      test node = below t)
    (hBelow : ∀ t ∈ towers, ∀ u ∈ towers, t.place < u.place → below u = true → below t = true) :
    Leading (l.arena.passes test) (towers.map slot) := by
  have hPasses : ∀ t ∈ towers, l.arena.passes test t.slot = below t := by
    intro t ht
    obtain ⟨node, hNode, hMember, hScore, -⟩ := h.arena.holds_of_mem ht
    rw [Arena.passes, hNode, Option.any_some, hTest t ht node hMember hScore]
  refine List.pairwise_map.mpr (h.ordered.imp_of_mem ?_)
  intro t u ht hu hPlace
  rw [hPasses t ht, hPasses u hu]
  exact hBelow t ht u hu hPlace

theorem leading_precedes (h : l.WellFormed towers) (score : Score) (member : String) :
    Leading (l.arena.passes fun node => node.precedes score member) (towers.map slot) :=
  h.leading_slots (fun t _ node hMember hScore => by rw [Node.precedes, hMember, hScore])
    (h.precedes_of_place_lt score member)

theorem leading_below (h : l.WellFormed towers) (bound : Score) :
    Leading (l.arena.passes fun node => node.score.lt bound) (towers.map slot) :=
  h.leading_slots (fun t _ node _ hScore => by rw [hScore]) (h.lt_of_place_lt bound)

end WellFormed

/-- A seek ends, and ends where it should, for every test that holds up to a node of the lowest
level: so do the tests of all operations, with what is not a number for a bound as well. -/
theorem seek?_ends (h : l.Sound) :
    ∃ chain : Nat → List Slot,
      (∀ level < maxHeight, l.arena.slotsOn? level = some (chain level)) ∧
      (∀ test, Leading (l.arena.passes test) (chain 0) →
        ∃ path, seek? l.arena l.level test = some path ∧ l.SeekEnds test chain path) ∧
      (∀ score member,
        Leading (l.arena.passes fun node => node.precedes score member) (chain 0)) ∧
      ∀ bound, Leading (l.arena.passes fun node => node.score.lt bound) (chain 0) := by
  obtain ⟨towers, hWellFormed⟩ := h
  refine ⟨fun level => (onLevel level towers).map slot, fun level => hWellFormed.slotsOn?_eq, ?_⟩
  simp only [onLevel_zero]
  exact ⟨fun test => hWellFormed.seekEnds, hWellFormed.leading_precedes,
    hWellFormed.leading_below⟩

/-- Two members of one score, both on two levels, between the infinities. -/
def twoLevels : SkipList :=
  ((empty { tosses := fun i => i = 0 ∨ i = 2 }).run [.insert "b" .zero, .insert "a" .zero,
    .insert "c" .infinity, .insert "d" .negInfinity]).2

/-- The seek of the second of the equals ends at the first on both levels. Nothing is below what is
not a number. -/
theorem seek?_ends_tie :
    twoLevels.Sound ∧ twoLevels.arena.slotsOn? 0 = some [4, 2, 1, 3] ∧
      twoLevels.arena.slotsOn? 1 = some [2, 1] ∧
      (∃ path, seek? twoLevels.arena twoLevels.level (fun node => node.precedes .zero "b") =
          some path ∧ path[0]? = some 2 ∧ path[1]? = some 2 ∧ path[31]? = some 0 ∧
        after? twoLevels.arena path = some (some 1)) ∧
      ∃ path, seek? twoLevels.arena twoLevels.level (fun node => node.score.lt .nan) =
          some path ∧ path[1]? = some 0 ∧ after? twoLevels.arena path = some (some 4) := by
  have hSound : twoLevels.Sound := ((wellFormed_empty _).run _).sound
  have hLowest : twoLevels.arena.slotsOn? 0 = some [4, 2, 1, 3] := rfl
  have hSecond : twoLevels.arena.slotsOn? 1 = some [2, 1] := rfl
  have hLevel : twoLevels.level = 2 := rfl
  obtain ⟨chain, hChain, hSeek, hPrecedes, hBelow⟩ := seek?_ends hSound
  have hChain₀ : chain 0 = [4, 2, 1, 3] :=
    Option.some.inj ((hChain 0 (by decide)).symm.trans hLowest)
  have hChain₁ : chain 1 = [2, 1] :=
    Option.some.inj ((hChain 1 (by decide)).symm.trans hSecond)
  obtain ⟨path, hPath, hEnds⟩ := hSeek _ (hPrecedes .zero "b")
  obtain ⟨lowest, hLowestPath, hNone⟩ := hSeek _ (hBelow .nan)
  refine ⟨hSound, hLowest, hSecond, ⟨path, hPath, ?_, ?_, ?_, ?_⟩, lowest, hLowestPath, ?_, ?_⟩
  · rw [hEnds.last 0 (by omega), hChain₀]
    rfl
  · rw [hEnds.last 1 (by omega), hChain₁]
    rfl
  · exact hEnds.unused 31 (by omega) (by decide)
  · rw [hEnds.next, hChain₀]
    rfl
  · rw [hNone.last 1 (by omega), hChain₁]
    rfl
  · rw [hNone.next, hChain₀]
    rfl

end SkipList
end Keyspace
