import Keyspace.Proofs.SkipList.Descent
import Keyspace.Proofs.SkipList.Slots

/-! # Rescoring: a node that keeps its neighbours is as if it had been taken out and linked again

Which levels lead where is determined by the sequence of towers, so it is enough that both ways of
giving a node its score carry the same sequence. -/
namespace Keyspace
open Tower
set_option autoImplicit false

namespace Arena

variable {a b : Arena} {towers spare : List Tower} {t : Tower}

theorem Leads.same_next? {level : Nat} {stop : Option Slot} (ha : a.Leads level t towers stop)
    (hb : b.Leads level t towers stop) :
    ∀ u ∈ t :: towers, b.next? u.slot level = a.next? u.slot level := by
  induction towers generalizing t with
  | nil =>
    intro u hu
    rw [List.mem_singleton.mp hu]
    exact hb.trans ha.symm
  | cons second rest ih =>
    intro u hu
    rcases List.mem_cons.mp hu with rfl | hu
    · exact hb.1.trans ha.1.symm
    · exact ih ha.2 hb.2 u hu

theorem Holds.same_node (ha : a.Holds t) (hb : b.Holds t)
    (hNext : ∀ level < t.height.val, b.next? t.slot level = a.next? t.slot level) :
    b.nodes[t.slot]? = a.nodes[t.slot]? := by
  obtain ⟨node, hNode, hMember, hScore, hHeight⟩ := ha
  obtain ⟨node', hNode', hMember', hScore', hHeight'⟩ := hb
  have hForward : node'.forward = node.forward := by
    refine Array.ext (hHeight'.trans hHeight.symm) ?_
    intro level hLevel' hLevel
    have hLinks := hNext level (hHeight ▸ hLevel)
    simpa [Arena.next?, hNode, hNode', hLevel, hLevel'] using hLinks
  rw [hNode, hNode', Option.some.injEq, Node.mk.injEq]
  exact ⟨hMember'.trans hMember.symm, hScore'.trans hScore.symm, hForward⟩

/-- A node that keeps its member and its height, in an arena where it may have another score. -/
theorem Holds.rescored {score : Score} {node : Node} (ha : a.Holds t)
    (hb : b.Holds { t with score }) (hNode : a.nodes[t.slot]? = some node) :
    ∃ forward, forward.size = node.height ∧
      b.nodes[t.slot]? = some { node with score, forward } := by
  obtain ⟨same, hSame, hMember, -, hHeight⟩ := ha
  obtain ⟨node', hNode', hMember', hScore', hHeight'⟩ := hb
  cases hNode.symm.trans hSame
  refine ⟨node'.forward, hHeight'.trans hHeight.symm, hNode'.trans ?_⟩
  rw [Option.some.injEq, Node.mk.injEq]
  exact ⟨hMember'.trans hMember.symm, hScore', rfl⟩

theorem Holds.reforwarded {node : Node} (ha : a.Holds t) (hb : b.Holds t)
    (hNode : a.nodes[t.slot]? = some node) :
    ∃ forward, forward.size = node.height ∧ b.nodes[t.slot]? = some { node with forward } := by
  have hScore : node.score = t.score := by
    obtain ⟨same, hSame, -, hEq, -⟩ := ha
    cases hNode.symm.trans hSame
    exact hEq
  have hb' : b.Holds { t with score := node.score } := hScore ▸ hb
  exact ha.rescored hb' hNode

theorem setScore?_frame {slot : Slot} {score : Score} (h : a.setScore? slot score = some b) :
    b.free = a.free ∧ ∀ other ≠ slot, b.nodes[other]? = a.nodes[other]? := by
  obtain ⟨node, -, hSet⟩ := Option.bind_eq_some_iff.mp h
  cases hSet
  exact ⟨rfl, fun other hNe => Array.getElem?_setIfInBounds_ne hNe.symm⟩

namespace Carries

theorem not_free (h : a.Carries towers spare) (ht : t ∈ head :: (towers ++ spare)) :
    t.slot ∉ a.free := by
  have hNodup := (h.slots.nodup_iff).mpr List.nodup_range
  intro hFree
  exact (List.nodup_append.mp hNodup).2.2 _ (List.mem_map_of_mem ht) _ hFree rfl

theorem mem_or_free (h : a.Carries towers spare) {slot : Slot} (hSlot : slot < a.nodes.size) :
    (∃ t ∈ head :: (towers ++ spare), t.slot = slot) ∨ slot ∈ a.free := by
  have hMem := h.slots.symm.subset (List.mem_range.mpr hSlot)
  rcases List.mem_append.mp hMem with hTower | hFree
  · exact .inl (List.mem_map.mp hTower)
  · exact .inr hFree

/-- Two arenas with the same towers differ at most in what is left in free slots. -/
theorem ext (ha : a.Carries towers []) (hb : b.Carries towers []) (hFree : b.free = a.free)
    (hLeft : ∀ slot ∈ a.free, b.nodes[slot]? = a.nodes[slot]?) : b = a := by
  have hSize : b.nodes.size = a.nodes.size := by rw [ha.size_eq, hb.size_eq, hFree]
  have hNodes : b.nodes = a.nodes := by
    apply Array.ext_getElem?
    intro slot
    by_cases hSlot : slot < a.nodes.size
    -- where a tower leads to on each of its levels is for the sequence of towers to say
    · rcases ha.mem_or_free hSlot with ⟨t, ht, rfl⟩ | hFreeSlot
      · apply (ha.holds t ht).same_node (hb.holds t ht)
        intro level hLevel
        have hMax := Nat.lt_of_lt_of_le hLevel t.height.le_max
        apply (ha.linked level hMax).same_next? (hb.linked level hMax)
        rw [List.append_nil] at ht
        rcases List.mem_cons.mp ht with rfl | ht
        · exact List.mem_cons_self
        · exact List.mem_cons_of_mem head (mem_onLevel.mpr ⟨ht, hLevel⟩)
      · exact hLeft slot hFreeSlot
    · rw [Array.getElem?_eq_none (by omega), Array.getElem?_eq_none (by omega)]
  cases a
  cases b
  cases hNodes
  cases hFree
  rfl

end Carries
end Arena

namespace SkipList

variable {l next : SkipList} {towers before after before' after' : List Tower} {t : Tower}
  {score : Score}

theorem exists_of_mem_pathTo {slot : Slot} (h : slot ∈ pathTo before) :
    ∃ t ∈ head :: before, t.slot = slot := by
  obtain ⟨level, -, rfl⟩ := List.mem_map.mp h
  exact ⟨_, Arena.lastOn_mem_cons level before, rfl⟩

/-- What rescoring the node in a slot does: the node and all others keep their slots, members and
heights, the others their scores, and on each of its levels the node comes right between those
before and those after its new place. -/
structure Rescored (l next : SkipList) (slot : Slot) (node : Node) (score : Score) : Prop where
  found : l.arena.nodes[slot]? = some node
  kept : ∃ forward, forward.size = node.height ∧
    next.arena.nodes[slot]? = some { node with score, forward }
  others : ∀ other ≠ slot, ∀ unmoved, l.arena.nodes[other]? = some unmoved →
    ∃ forward, forward.size = unmoved.height ∧
      next.arena.nodes[other]? = some { unmoved with forward }
  size : next.arena.nodes.size = l.arena.nodes.size
  free : next.arena.free = l.arena.free
  rest : next = { l with arena := next.arena, scores := l.scores.insert node.member score }
  between : ∀ level < maxHeight, ∃ before after,
    (l.arena.slotsOn? level).map (·.erase slot) = some (before ++ after) ∧
    next.arena.slotsOn? level =
      some (before ++ if level < node.height then slot :: after else after) ∧
    (∀ other ∈ before, l.arena.passes (·.precedes score node.member) other = true) ∧
    ∀ other ∈ after, l.arena.passes (·.follows score node.member) other = true

namespace WellFormed

/-- Relinking leaves the free slots as they are. -/
theorem relink?_free (h : l.WellFormed (before ++ t :: after)) {unlinked scored linked : Arena}
    (hRest : before' ++ after' = before ++ after)
    (hUnlink : unlink? t.slot (pathTo before) (List.range l.level) l.arena = some unlinked)
    (hSet : unlinked.setScore? t.slot score = some scored)
    (hLink : link? scored t.slot (pathTo before') = some linked) :
    linked.free = l.arena.free ∧
      ∀ slot ∈ l.arena.free, linked.nodes[slot]? = l.arena.nodes[slot]? := by
  have hUsed : ∀ u ∈ head :: (before ++ t :: after), u.slot ∉ l.arena.free := by
    intro u hu
    exact h.arena.not_free (by rwa [List.append_nil])
  have hBefore : ∀ slot ∈ pathTo before, slot ∉ l.arena.free := by
    intro slot hSlot
    obtain ⟨u, hu, rfl⟩ := exists_of_mem_pathTo hSlot
    exact hUsed u (List.mem_append_left (t :: after) hu)
  have hBefore' : ∀ slot ∈ pathTo before', slot ∉ l.arena.free := by
    intro slot hSlot
    obtain ⟨u, hu, rfl⟩ := exists_of_mem_pathTo hSlot
    have hOther : u ∈ head :: (before ++ after) := hRest ▸ List.mem_append_left after' hu
    have hSub : (before ++ after).Sublist (before ++ t :: after) :=
      (List.sublist_cons_self t after).append_left before
    exact hUsed u ((hSub.cons_cons head).subset hOther)
  have hTower : t.slot ∉ l.arena.free := hUsed t (by simp)
  have hUnlinked := Arena.Rewires.of_unlink? hBefore hUnlink
  have hLinked := Arena.Rewires.of_link? hTower hBefore' hLink
  obtain ⟨hFree, hScored⟩ := Arena.setScore?_frame hSet
  constructor
  · rw [hLinked.relinked.free, hFree, hUnlinked.relinked.free]
  · intro slot hSlot
    have hNe : slot ≠ t.slot := fun hEq => hTower (hEq ▸ hSlot)
    rw [hLinked.same_node (not_not_intro hSlot), hScored slot hNe,
      hUnlinked.same_node (not_not_intro hSlot)]

/-- A node whose neighbours stay the same is linked again as it was. -/
theorem setScore?_of_relink? (h : l.WellFormed (before ++ t :: after)) (hScore : score ≠ .nan)
    (hBefore : ∀ u ∈ before, u.place < placeOf score t.member)
    (hAfter : ∀ u ∈ after, placeOf score t.member < u.place) :
    l.arena.setScore? t.slot score =
      SkipList.relink? l.arena l.level t.slot (pathTo before) t.member score := by
  obtain ⟨unlinked, scored, linked, hUnlink, hSet, hLink, hRelink, hLinked⟩ :=
    h.relink? hScore rfl hBefore hAfter
  obtain ⟨hFree, hLeft⟩ := h.relink?_free rfl hUnlink hSet hLink
  obtain ⟨a, hInPlace, hCarries⟩ := h.arena.setScore? (t := t) (by simp) score
  rw [h.map_rescored] at hCarries
  obtain ⟨hFree', hOthers⟩ := Arena.setScore?_frame hInPlace
  have hNotFree : t.slot ∉ l.arena.free := h.arena.not_free (by simp)
  rw [hRelink, hInPlace, Option.some.injEq]
  refine hLinked.ext hCarries (hFree'.trans hFree.symm) ?_
  intro slot hSlot
  rw [hFree] at hSlot
  have hNe : slot ≠ t.slot := fun hEq => hNotFree (hEq ▸ hSlot)
  rw [hOthers slot hNe, hLeft slot hSlot]

theorem slotsOn?_erase (h : l.WellFormed (before ++ t :: after)) {level : Nat}
    (hLevel : level < maxHeight) :
    (l.arena.slotsOn? level).map (·.erase t.slot) =
      some ((onLevel level (before ++ after)).map slot) := by
  have hRest : t.slot ∉ (onLevel level (before ++ after)).map slot := by
    intro hMem
    obtain ⟨u, hu, hSlot⟩ := List.mem_map.mp hMem
    exact h.slot_ne u (mem_onLevel.mp hu).1 hSlot
  rw [h.slotsOn?_eq hLevel, Option.map_some, onLevel_append, onLevel_cons]
  rw [onLevel_append, List.map_append] at hRest ⊢
  split
  · rw [List.map_append, List.map_cons,
      List.erase_append_right _ (fun hMem => hRest (List.mem_append_left _ hMem)),
      List.erase_cons_head]
  · rw [List.map_append, List.erase_of_not_mem hRest]

theorem passes_precedes (h : l.WellFormed towers) (hScore : score ≠ .nan)
    {member : String} (ht : t ∈ towers) (hPlace : t.place < placeOf score member) :
    l.arena.passes (·.precedes score member) t.slot = true := by
  obtain ⟨node, hNode, hMember, hEq, -⟩ := h.arena.holds_of_mem ht
  rw [Arena.passes, hNode, Option.any_some]
  exact (precedes_iff_of_holds (h.number t ht) hScore hMember hEq).mpr hPlace

theorem passes_follows (h : l.WellFormed towers) (hScore : score ≠ .nan)
    {member : String} (ht : t ∈ towers) (hPlace : placeOf score member < t.place) :
    l.arena.passes (·.follows score member) t.slot = true := by
  obtain ⟨node, hNode, hMember, hEq, -⟩ := h.arena.holds_of_mem ht
  rw [Arena.passes, hNode, Option.any_some, Node.follows_iff (hEq ▸ h.number t ht) hScore,
    Node.place, hMember, hEq]
  exact hPlace

/-- The sequence of towers with one of them at its new place, in an arena that has the same slots
free and the same left in them. -/
theorem rescoredTo {arena : Arena} (h : l.WellFormed (before ++ t :: after))
    (hRest : before' ++ after' = before ++ after)
    (hArena : arena.Carries (before' ++ { t with score } :: after') [])
    (hFree : arena.free = l.arena.free)
    (hLeft : ∀ slot ∈ l.arena.free, arena.nodes[slot]? = l.arena.nodes[slot]?)
    (hScore : score ≠ .nan) (hBefore : ∀ u ∈ before', u.place < placeOf score t.member)
    (hAfter : ∀ u ∈ after', placeOf score t.member < u.place) :
    ∃ node, node.member = t.member ∧ node.score = t.score ∧
      l.Rescored { l with arena, scores := l.scores.insert t.member score } t.slot node score := by
  have hNext := h.rescored hRest hArena hScore hBefore hAfter
  have hOther : ∀ u ∈ before' ++ after', u ∈ before ++ t :: after := by
    intro u hu
    rw [hRest] at hu
    exact List.perm_middle.symm.subset (List.mem_cons_of_mem t hu)
  obtain ⟨node, hNode, hMember, hEq, hHeight⟩ := h.arena.holds_of_mem (t := t) (by simp)
  refine ⟨node, hMember, hEq, ?_⟩
  constructor
  case found => exact hNode
  case kept =>
    exact (h.arena.holds_of_mem (by simp)).rescored (hArena.holds_of_mem (by simp)) hNode
  case others =>
    intro slot hSlot unmoved hUnmoved
    obtain ⟨hBound, -⟩ := Array.getElem?_eq_some_iff.mp hUnmoved
    rcases h.arena.mem_or_free hBound with ⟨u, hu, rfl⟩ | hFreeSlot
    · have hHolds := h.arena.holds u hu
      have hHolds' : arena.Holds u := by
        apply hArena.holds
        grind
      exact hHolds.reforwarded hHolds' hUnmoved
    · exact ⟨unmoved.forward, rfl, (hLeft slot hFreeSlot).trans hUnmoved⟩
  case size =>
    have hLength := congrArg List.length hRest
    rw [List.length_append, List.length_append] at hLength
    have hSize := h.arena.size_eq
    have hSize' := hArena.size_eq
    rw [hFree] at hSize'
    simp only [List.length_append, List.length_cons] at hSize hSize'
    change arena.nodes.size = l.arena.nodes.size
    omega
  case free => exact hFree
  case rest => rw [hMember]
  case between =>
    intro level hLevel
    refine ⟨(onLevel level before').map slot, (onLevel level after').map slot, ?_, ?_, ?_, ?_⟩
    · rw [h.slotsOn?_erase hLevel, ← hRest, onLevel_append, List.map_append]
    · rw [hNext.slotsOn?_eq hLevel, onLevel_append, onLevel_cons, List.map_append, hHeight]
      split <;> rfl
    · intro slot hSlot
      obtain ⟨u, hu, rfl⟩ := List.mem_map.mp hSlot
      have hMem := (mem_onLevel.mp hu).1
      rw [hMember]
      exact h.passes_precedes hScore (hOther u (List.mem_append_left after' hMem)) (hBefore u hMem)
    · intro slot hSlot
      obtain ⟨u, hu, rfl⟩ := List.mem_map.mp hSlot
      have hMem := (mem_onLevel.mp hu).1
      rw [hMember]
      exact h.passes_follows hScore (hOther u (List.mem_append_right before' hMem)) (hAfter u hMem)

end WellFormed

/-- Whichever way a member gets its score, the arena is the one that taking its node out and linking
it again makes. -/
theorem rescore?_either_way {member : String} {old : Score} (h : l.Sound)
    (hOld : l.score? member = some old) (hScore : score ≠ .nan) :
    ∃ path before slot stays node next,
      seek? l.arena l.level (fun node => node.precedes old member) = some path ∧
      path[0]? = some before ∧ after? l.arena path = some (some slot) ∧
      staysInPlace? l.arena before slot member score = some stays ∧
      l.rescore? member old score = some next ∧
      (stays = true → l.arena.setScore? slot score = some next.arena) ∧
      relink? l.arena l.level slot path member score = some next.arena ∧
      node.member = member ∧ node.score = old ∧ l.Rescored next slot node score ∧ next.Sound := by
  obtain ⟨towers, hWellFormed⟩ := h
  obtain ⟨before, t, after, rfl, rfl, rfl⟩ := hWellFormed.exists_split hOld
  obtain ⟨hSeek, hAfter⟩ := hWellFormed.seek?_member
  obtain ⟨stays, hStays, hIff⟩ := hWellFormed.staysInPlace?_iff hScore
  obtain ⟨before', after', hRest, hBefore', hAfter'⟩ := hWellFormed.exists_place score
  obtain ⟨unlinked, scored, linked, hUnlink, hSet, hLink, hRelink, hCarries⟩ :=
    hWellFormed.relink? hScore hRest hBefore' hAfter'
  obtain ⟨hFree, hLeft⟩ := hWellFormed.relink?_free hRest hUnlink hSet hLink
  obtain ⟨node, hMember, hEq, hRescored⟩ :=
    hWellFormed.rescoredTo hRest hCarries hFree hLeft hScore hBefore' hAfter'
  have hFirst : (pathTo before)[0]? = some (lastOn 0 before).slot :=
    getElem?_pathTo before zero_lt_maxHeight
  -- both branches end in the arena that relinking makes
  have hInPlace : stays = true → l.arena.setScore? t.slot score = some linked := by
    intro hTrue
    obtain ⟨hBefore, hAfter⟩ := hIff.mp hTrue
    rw [hWellFormed.setScore?_of_relink? hScore hBefore hAfter, hRelink]
  have hNext := hWellFormed.rescored hRest hCarries hScore hBefore' hAfter'
  refine ⟨pathTo before, (lastOn 0 before).slot, t.slot, stays, node, _, hSeek, hFirst, hAfter,
    hStays, hWellFormed.rescore?_eq hStays ?_, hInPlace, hRelink, hMember, hEq, hRescored,
    ⟨_, hNext⟩⟩
  split
  · exact hInPlace ‹_›
  · exact hRelink

/-- The last member falls to the score of those before it and stays the last, its own score in its
slot; the one before it falls to the lowest score and comes first, on both of its levels. -/
theorem rescore?_either_way_ties :
    twoLevels.Sound ∧ twoLevels.score? "c" = some .infinity ∧ twoLevels.score? "b" = some .zero ∧
      (∃ next, twoLevels.rescore? "c" .infinity .zero = some next ∧
        twoLevels.arena.setScore? 3 .zero = some next.arena ∧
        relink? twoLevels.arena 2 3 (1 :: 1 :: List.replicate 30 0) "c" .zero = some next.arena ∧
        next.arena.slotsOn? 0 = some [4, 2, 1, 3]) ∧
      ∃ next node, twoLevels.rescore? "b" .zero .negInfinity = some next ∧
        relink? twoLevels.arena 2 1 (2 :: 2 :: List.replicate 30 0) "b" .negInfinity =
          some next.arena ∧
        twoLevels.Rescored next 1 node .negInfinity ∧ node.height = 2 ∧
        next.arena.slotsOn? 0 = some [1, 4, 2, 3] ∧ next.arena.slotsOn? 1 = some [1, 2] := by
  have hSound : twoLevels.Sound := ((wellFormed_empty _).run _).sound
  have hLast : twoLevels.score? "c" = some .infinity := rfl
  have hMiddle : twoLevels.score? "b" = some .zero := rfl
  obtain ⟨path, before, slot, stays, node, next, hSeek, hBefore, hAfter, hStays, hNext, hInPlace,
    hRelink, -, -, -, -⟩ := rescore?_either_way hSound hLast (by decide : Score.zero ≠ .nan)
  obtain ⟨path', before', slot', stays', node', next', hSeek', hBefore', hAfter', hStays', hNext',
    -, hRelink', -, -, hRescored, -⟩ :=
      rescore?_either_way hSound hMiddle (by decide : Score.negInfinity ≠ .nan)
  cases hSeek
  cases hBefore
  cases hAfter
  cases hStays
  cases hSeek'
  cases hAfter'
  have hNode := hRescored.found
  cases hNode
  refine ⟨hSound, hLast, hMiddle, ⟨next, hNext, hInPlace rfl, hRelink, ?_⟩, next', _, hNext',
    hRelink', hRescored, rfl, ?_, ?_⟩
  · cases hNext
    rfl
  · cases hNext'
    rfl
  · cases hNext'
    rfl

end SkipList
end Keyspace
