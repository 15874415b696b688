import Mathlib.Order.Bounds.Basic
import Mathlib.Data.List.Infix
import Mathlib.Logic.Relation
import Keyspace.Proofs.SkipList.Run
import Keyspace.Proofs.SkipList.Cardinality

/-! # Slots: an arena never has more of them than were needed at some moment -/
namespace Keyspace
open Tower
set_option autoImplicit false

namespace Arena

variable {a b : Arena} {slot : Slot} {path : Path}

theorem Relinked.of_setNext? {level : Nat} {next : Option Slot}
    (h : a.setNext? slot level next = some b) : a.Relinked b := by
  obtain ⟨node, hNode, hSet⟩ := Option.bind_eq_some_iff.mp h
  by_cases hLevel : level < node.height
  · obtain ⟨old, hOld⟩ : ∃ old, node.forward[level]? = some old :=
      ⟨_, Array.getElem?_eq_getElem hLevel⟩
    obtain ⟨c, hChanged, hRelinked, -⟩ :=
      setNext?_of_next? (Option.bind_eq_some_iff.mpr ⟨node, hNode, hOld⟩) next
    cases h.symm.trans hChanged
    exact hRelinked
  · rw [if_neg hLevel] at hSet
    cases hSet

/-- A run of changes to the links of some slots. -/
def Rewires (changed : Slot → Prop) : Arena → Arena → Prop :=
  Relation.ReflTransGen fun a b =>
    ∃ slot level next, changed slot ∧ a.setNext? slot level next = some b

namespace Rewires

variable {changed : Slot → Prop}

theorem of_setNext? {level : Nat} {next : Option Slot} (hSlot : changed slot)
    (h : a.setNext? slot level next = some b) : Rewires changed a b :=
  .single ⟨slot, level, next, hSlot, h⟩

theorem of_linkLevel? {level : Nat} (hSlot : changed slot) (hPath : ∀ s ∈ path, changed s)
    (h : SkipList.linkLevel? slot path a level = some b) : Rewires changed a b := by
  simp only [SkipList.linkLevel?, Option.bind_eq_bind, Option.bind_eq_some_iff] at h
  obtain ⟨before, hLevel, next, -, c, hOwn, hBefore⟩ := h
  exact (of_setNext? hSlot hOwn).trans
    (of_setNext? (hPath before (List.mem_of_getElem? hLevel)) hBefore)

theorem of_foldlM {levels : List Nat} (hSlot : changed slot) (hPath : ∀ s ∈ path, changed s)
    (h : levels.foldlM (SkipList.linkLevel? slot path) a = some b) : Rewires changed a b := by
  induction levels generalizing a with
  | nil =>
    cases h
    exact .refl
  | cons level levels ih =>
    rw [List.foldlM_cons] at h
    obtain ⟨c, hFirst, hRest⟩ := Option.bind_eq_some_iff.mp h
    exact (of_linkLevel? hSlot hPath hFirst).trans (ih hRest)

theorem of_link? (hSlot : changed slot) (hPath : ∀ s ∈ path, changed s)
    (h : SkipList.link? a slot path = some b) : Rewires changed a b := by
  obtain ⟨node, -, hLevels⟩ := Option.bind_eq_some_iff.mp h
  exact of_foldlM hSlot hPath hLevels

theorem of_unlink? {levels : List Nat} (hPath : ∀ s ∈ path, changed s)
    (h : SkipList.unlink? slot path levels a = some b) : Rewires changed a b := by
  induction levels generalizing a with
  | nil =>
    cases h
    exact .refl
  | cons level levels ih =>
    simp only [SkipList.unlink?, Option.bind_eq_bind, Option.bind_eq_some_iff] at h
    obtain ⟨before, hLevel, next, -, hRest⟩ := h
    split at hRest
    · simp only [Option.bind_eq_some_iff] at hRest
      obtain ⟨after, -, c, hSet, hRest⟩ := hRest
      exact (of_setNext? (hPath before (List.mem_of_getElem? hLevel)) hSet).trans (ih hRest)
    · cases hRest
      exact .refl

theorem relinked (h : Rewires changed a b) : a.Relinked b := by
  induction h with
  | refl => exact .refl a
  | tail _ hStep ih =>
    obtain ⟨slot, level, next, -, hSet⟩ := hStep
    exact ih.trans (.of_setNext? hSet)

theorem same_node (h : Rewires changed a b) (hSlot : ¬ changed slot) :
    b.nodes[slot]? = a.nodes[slot]? := by
  induction h with
  | refl => rfl
  | tail _ hStep ih =>
    obtain ⟨other, level, next, hOther, hSet⟩ := hStep
    have hNe : other ≠ slot := fun hEq => hSlot (hEq ▸ hOther)
    rw [← ih]
    obtain ⟨node, -, hSet⟩ := Option.bind_eq_some_iff.mp hSet
    split at hSet <;> cases hSet
    exact Array.getElem?_setIfInBounds_ne hNe

end Rewires

theorem Relinked.of_link? (h : SkipList.link? a slot path = some b) : a.Relinked b :=
  (Rewires.of_link? trivial (fun _ _ => trivial) h : Rewires (fun _ => True) a b).relinked

theorem Relinked.of_unlink? {levels : List Nat}
    (h : SkipList.unlink? slot path levels a = some b) : a.Relinked b :=
  (Rewires.of_unlink? (fun _ _ => trivial) h : Rewires (fun _ => True) a b).relinked

theorem size_nodes_setScore? {score : Score} (h : a.setScore? slot score = some b) :
    b.nodes.size = a.nodes.size := by
  obtain ⟨node, -, hSet⟩ := Option.bind_eq_some_iff.mp h
  cases hSet
  exact Array.size_setIfInBounds

theorem size_nodes_release? (h : a.release? slot = some b) : b.nodes.size = a.nodes.size := by
  rw [release?] at h
  split at h <;> cases h
  exact Array.size_setIfInBounds

/-- An arena keeps its slots, or it gets one more and none is free. -/
def Grows (a b : Arena) : Prop :=
  b.nodes.size = a.nodes.size ∨ b.nodes.size = a.nodes.size + 1 ∧ b.free = []

theorem Grows.of_alloc? {node : Node} (h : a.alloc? node = some (slot, b)) : a.Grows b := by
  rw [alloc?] at h
  split at h
  · rename_i hFree
    cases h
    exact .inr ⟨Array.size_push .., hFree⟩
  · split at h <;> cases h
    exact .inl Array.size_setIfInBounds

theorem Grows.relinked {c : Arena} (h : a.Grows b) (hRelinked : b.Relinked c) : a.Grows c := by
  rwa [Grows, hRelinked.size, hRelinked.free]

end Arena

namespace SkipList

variable {l next : SkipList} {slot : Slot} {path : Path}

theorem size_nodes_relink? {a b : Arena} {level : Nat} {member : String} {score : Score}
    (h : relink? a level slot path member score = some b) : b.nodes.size = a.nodes.size := by
  simp only [relink?, Option.bind_eq_bind, Option.bind_eq_some_iff] at h
  obtain ⟨unlinked, hUnlink, scored, hScore, path', -, hLink⟩ := h
  rw [(Arena.Relinked.of_link? hLink).size, Arena.size_nodes_setScore? hScore,
    (Arena.Relinked.of_unlink? hUnlink).size]

theorem size_nodes_rescore? {member : String} {old new : Score}
    (h : l.rescore? member old new = some next) :
    next.arena.nodes.size = l.arena.nodes.size := by
  simp only [rescore?, Option.bind_eq_bind, Option.bind_eq_some_iff] at h
  obtain ⟨path, -, found, -, h⟩ := h
  cases found with
  | none => cases h
  | some slot =>
    simp only [Option.bind_eq_some_iff] at h
    obtain ⟨before, -, stays, -, h⟩ := h
    split at h <;> obtain ⟨arena, hArena, hNext⟩ := Option.bind_eq_some_iff.mp h <;> cases hNext
    · exact Arena.size_nodes_setScore? hArena
    · exact size_nodes_relink? hArena

theorem grows_insertBy? {draw : Coins → Height × Coins} {member : String} {score : Score}
    {added : Bool} (h : l.insertBy? draw member score = some (added, next)) :
    l.arena.Grows next.arena := by
  rw [insertBy?] at h
  split at h
  · cases h
    exact .inl rfl
  · split at h
    · split at h
      · cases h
        exact .inl rfl
      · obtain ⟨rescored, hRescore, hEq⟩ := Option.map_eq_some_iff.mp h
        cases hEq
        exact .inl (size_nodes_rescore? hRescore)
    · simp only [Option.bind_eq_bind, Option.bind_eq_some_iff] at h
      obtain ⟨path, -, ⟨slot, allocated⟩, hAlloc, linked, hLink, hNext⟩ := h
      cases hNext
      exact (Arena.Grows.of_alloc? hAlloc).relinked (Arena.Relinked.of_link? hLink)

theorem size_nodes_drop? (h : l.drop? slot path = some next) :
    next.arena.nodes.size = l.arena.nodes.size := by
  simp only [drop?, Option.bind_eq_bind, Option.bind_eq_some_iff] at h
  obtain ⟨node, -, unlinked, hUnlink, released, hRelease, level, -, hNext⟩ := h
  cases hNext
  exact (Arena.size_nodes_release? hRelease).trans (Arena.Relinked.of_unlink? hUnlink).size

theorem size_nodes_remove? {member : String} {removed : Bool}
    (h : l.remove? member = some (removed, next)) :
    next.arena.nodes.size = l.arena.nodes.size := by
  rw [remove?] at h
  split at h
  · cases h
    rfl
  · simp only [Option.bind_eq_bind, Option.bind_eq_some_iff] at h
    obtain ⟨path, -, found, -, h⟩ := h
    cases found with
    | none => cases h
    | some slot =>
      obtain ⟨dropped, hDrop, hEq⟩ := Option.map_eq_some_iff.mp h
      cases hEq
      exact size_nodes_drop? hDrop

theorem size_nodes_dropWhile? {maxScore : Score} {count dropped : Nat} {cursor : Option Slot}
    (h : dropWhile? maxScore path count cursor l = some (dropped, next)) :
    next.arena.nodes.size = l.arena.nodes.size := by
  induction count generalizing l cursor dropped with
  | zero =>
    cases h
    rfl
  | succ count ih =>
    cases cursor with
    | none =>
      cases h
      rfl
    | some slot =>
      simp only [dropWhile?, Option.bind_eq_bind, Option.bind_eq_some_iff] at h
      obtain ⟨node, -, h⟩ := h
      split at h
      · simp only [Option.bind_eq_some_iff] at h
        obtain ⟨link, -, shorter, hDrop, ⟨more, last⟩, hRest, hEq⟩ := h
        cases hEq
        exact (ih hRest).trans (size_nodes_drop? hDrop)
      · cases h
        rfl

theorem size_nodes_removeRange? {minScore maxScore : Score} {offset count dropped : Nat}
    (h : l.removeRange? minScore maxScore offset count = some (dropped, next)) :
    next.arena.nodes.size = l.arena.nodes.size := by
  simp only [removeRange?, Option.bind_eq_bind, Option.bind_eq_some_iff] at h
  obtain ⟨path, -, start, -, ⟨passed, cursor⟩, -, hDrop⟩ := h
  exact size_nodes_dropWhile? hDrop

theorem grows_performBy? {draw : Coins → Height × Coins} {operation : Operation} {answer : Answer}
    (h : l.performBy? draw operation = some (answer, next)) : l.arena.Grows next.arena := by
  cases operation with
  | insert member score =>
    obtain ⟨⟨added, last⟩, hInsert, hEq⟩ := Option.map_eq_some_iff.mp h
    cases hEq
    exact grows_insertBy? hInsert
  | remove member =>
    obtain ⟨⟨removed, last⟩, hRemove, hEq⟩ := Option.map_eq_some_iff.mp h
    cases hEq
    exact .inl (size_nodes_remove? hRemove)
  | removeRange minScore maxScore offset count =>
    obtain ⟨⟨dropped, last⟩, hRemove, hEq⟩ := Option.map_eq_some_iff.mp h
    cases hEq
    exact .inl (size_nodes_removeRange? hRemove)
  | score | size | isEmpty =>
    cases h
    exact .inl rfl
  | entries | range | query =>
    obtain ⟨found, -, hEq⟩ := Option.map_eq_some_iff.mp h
    cases hEq
    exact .inl rfl

/-- An operation leads from a list to the next, with some height at hand or with the one drawn. -/
inductive Becomes (l next : SkipList) : Prop
  | given {height : Height} {operation : Operation} {answer : Answer}
      (h : l.perform? height operation = some (answer, next))
  | drawn {operation : Operation} (h : (l.perform operation).2 = next)

namespace WellFormed

variable {towers : List Tower}

theorem size_eq (h : l.WellFormed towers) : l.size = towers.length := by
  have hLength := ScoreMap.length_entries l.scores
  rw [h.entries_eq, List.length_map] at hLength
  exact hLength.symm

theorem size_nodes (h : l.WellFormed towers) :
    l.arena.nodes.size = 1 + l.size + l.arena.free.length := by
  rw [h.arena.size_eq, h.size_eq, List.length_nil, Nat.add_zero]

end WellFormed

theorem Sound.size_nodes (h : l.Sound) :
    l.arena.nodes.size = 1 + l.size + l.arena.free.length := by
  obtain ⟨towers, hWellFormed⟩ := h
  exact hWellFormed.size_nodes

theorem Sound.becomes (h : l.Sound) (hNext : l.Becomes next) :
    next.Sound ∧ l.arena.Grows next.arena := by
  obtain ⟨towers, hWellFormed⟩ := h
  cases hNext with
  | @given height operation answer h =>
    have hPerform := hWellFormed.perform? height operation
    rw [h] at hPerform
    exact ⟨hPerform.sound, grows_performBy? h⟩
  | @drawn operation h =>
    cases h
    exact ⟨(hWellFormed.perform operation).sound,
      grows_performBy? (hWellFormed.performBy?_drawHeight operation)⟩

/-- A slot is made only when all are in use, so there are as many as were in use at once. -/
theorem Sound.size_nodes_of_grows (h : next.Sound) (hGrows : l.arena.Grows next.arena) :
    next.arena.nodes.size = max l.arena.nodes.size (next.size + 1) := by
  have hSize := h.size_nodes
  rcases hGrows with hSame | ⟨hMore, hFree⟩
  · omega
  · rw [hFree, List.length_nil] at hSize
    omega

/-- Whatever operations are performed, there are as many slots besides the head's as there ever
were members at once, and as many of these are free as there are fewer members now. -/
def Thrifty (after? : List Operation → Option SkipList) : Prop :=
  ∀ operations, ∃ l peak, after? operations = some l ∧
    IsGreatest {members | ∃ begun held, begun <+: operations ∧ after? begun = some held ∧
      held.size = members} peak ∧
    l.arena.nodes.size = 1 + peak ∧ l.arena.free.length + l.size = peak

theorem thrifty_of_becomes {after? : List Operation → Option SkipList} {coins : Coins}
    (hStart : after? [] = some (empty coins))
    (hStep : ∀ operations operation l, after? operations = some l → l.Sound →
      ∃ next, after? (operations ++ [operation]) = some next ∧ l.Becomes next) :
    Thrifty after? := by
  intro operations
  suffices hPeak : ∃ l peak, after? operations = some l ∧ l.Sound ∧
      IsGreatest {members | ∃ begun held, begun <+: operations ∧ after? begun = some held ∧
        held.size = members} peak ∧ l.arena.nodes.size = 1 + peak by
    obtain ⟨l, peak, hAfter, hSound, hGreatest, hSlots⟩ := hPeak
    have hSize := hSound.size_nodes
    exact ⟨l, peak, hAfter, hGreatest, hSlots, by omega⟩
  -- on the run, whose last operation may bring the most members so far
  induction operations using List.reverseRecOn with
  | nil =>
    refine ⟨empty coins, 0, hStart, ⟨[], wellFormed_empty coins⟩, ⟨?_, ?_⟩, rfl⟩
    · exact ⟨[], empty coins, List.prefix_rfl, hStart, rfl⟩
    · rintro members ⟨begun, held, hBegun, hHeld, rfl⟩
      rw [List.prefix_nil.mp hBegun, hStart] at hHeld
      cases hHeld
      exact Nat.le_refl 0
  | append_singleton operations operation ih =>
    obtain ⟨l, peak, hAfter, hSound, hGreatest, hSlots⟩ := ih
    obtain ⟨next, hNext, hBecomes⟩ := hStep operations operation l hAfter hSound
    obtain ⟨hSoundNext, hGrows⟩ := hSound.becomes hBecomes
    have hSize := hSoundNext.size_nodes_of_grows hGrows
    have hMembers : {members | ∃ begun held, begun <+: operations ++ [operation] ∧
        after? begun = some held ∧ held.size = members} =
          Insert.insert next.size {members | ∃ begun held, begun <+: operations ∧
            after? begun = some held ∧ held.size = members} := by
      ext members
      simp only [List.prefix_concat_iff, Set.mem_ofPred_eq, Set.mem_insert_iff]
      constructor
      · rintro ⟨begun, held, rfl | hBegun, hHeld, rfl⟩
        · cases hNext.symm.trans hHeld
          exact .inl rfl
        · exact .inr ⟨begun, held, hBegun, hHeld, rfl⟩
      · rintro (rfl | ⟨begun, held, hBegun, hHeld, rfl⟩)
        · exact ⟨_, next, .inl rfl, hNext, rfl⟩
        · exact ⟨begun, held, .inr hBegun, hHeld, rfl⟩
    refine ⟨next, max next.size peak, hNext, hSoundNext, ?_, by omega⟩
    rw [hMembers]
    exact hGreatest.insert next.size

theorem run?_concat {heights : Nat → Height} {operations : List Operation} {operation : Operation}
    {answers : List Answer} {answer : Answer} {last : SkipList}
    (hRun : l.run? heights operations = some (answers, last))
    (hPerform : last.perform? (heights operations.length) operation = some (answer, next)) :
    l.run? heights (operations ++ [operation]) = some (answers ++ [answer], next) := by
  induction operations generalizing l heights answers with
  | nil =>
    cases hRun
    simp only [List.length_nil] at hPerform
    simp [run?, hPerform]
  | cons first rest ih =>
    simp only [run?, Option.bind_eq_bind, Option.bind_eq_some_iff] at hRun
    obtain ⟨⟨early, second⟩, hFirst, ⟨late, final⟩, hRest, hEq⟩ := hRun
    cases hEq
    have hWhole := ih hRest hPerform
    simp [run?, hFirst, hWhole]

theorem run_concat (l : SkipList) (operations : List Operation) (operation : Operation) :
    (l.run (operations ++ [operation])).2 = ((l.run operations).2.perform operation).2 := by
  induction operations generalizing l with
  | nil => rfl
  | cons first rest ih => exact ih (l.perform first).2

/-- Whatever heights are given, or drawn, no run makes a slot while one is free. -/
theorem thrifty_run (coins : Coins) :
    (∀ heights, Thrifty fun operations =>
      ((empty coins).run? heights operations).map Prod.snd) ∧
    Thrifty fun operations => some ((empty coins).run operations).2 := by
  constructor
  · intro heights
    refine thrifty_of_becomes rfl ?_
    intro operations operation l hAfter hSound
    obtain ⟨⟨answers, last⟩, hRun, rfl⟩ := Option.map_eq_some_iff.mp hAfter
    obtain ⟨towers, hWellFormed⟩ := hSound
    obtain ⟨next, -, hPerform, -⟩ := hWellFormed.perform? (heights operations.length) operation
    exact ⟨next, by rw [run?_concat hRun hPerform]; rfl, .given hPerform⟩
  · refine thrifty_of_becomes rfl ?_
    intro operations operation l hAfter hSound
    cases hAfter
    exact ⟨_, congrArg some (run_concat _ operations operation), .drawn rfl⟩

end SkipList
end Keyspace
