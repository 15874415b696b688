import Keyspace.Proofs.SkipList.Links

/-! # Seeking: a descent ends on each level at the last node that passes the test -/
namespace Keyspace
open Tower
set_option autoImplicit false

namespace Tower

/-- The last of some towers that stands on a level, or the head if none does. -/
def lastOn (level : Nat) (before : List Tower) : Tower := (onLevel level before).getLastD head

theorem lastOn_mem (level : Nat) (before : List Tower) :
    lastOn level before = head ∨
      lastOn level before ∈ before ∧ level < (lastOn level before).height.val := by
  have hMem : lastOn level before ∈ head :: onLevel level before := List.getLastD_mem_cons
  rcases List.mem_cons.mp hMem with h | h
  · exact .inl h
  · exact .inr (mem_onLevel.mp h)

end Tower

namespace Arena

def Rates (a : Arena) (test : Node → Bool) (t : Tower) (result : Bool) : Prop :=
  ∃ node, a.nodes[t.slot]? = some node ∧ test node = result

theorem Linked.leads {a : Arena} {before after : List Tower} (h : a.Linked (before ++ after))
    {level : Nat} (hLevel : level < maxHeight) :
    a.Leads level head (onLevel level before) (linkTo (onLevel level after)) ∧
      a.Trails level (onLevel level after) := by
  have hLeads := h level hLevel
  rw [onLevel_append] at hLeads
  exact leads_append.mp hLeads

/-- The level goes on from any tower on it, and its last tower before a place is the same as seen
from the head. -/
theorem Linked.leads_from {a : Arena} {before after : List Tower} (h : a.Linked (before ++ after))
    {t : Tower} (hTower : t ∈ head :: before) {level : Nat} (hLevel : level < t.height.val) :
    ∃ between : List Tower, (∀ u ∈ between, u ∈ before ∧ level < u.height.val) ∧
      between.length ≤ before.length ∧
      a.Leads level t (between ++ onLevel level after) none ∧
      between.getLastD t = lastOn level before := by
  have hLeads := h level (Nat.lt_of_lt_of_le hLevel t.height.le_max)
  rw [onLevel_append] at hLeads
  rcases List.mem_cons.mp hTower with rfl | hMem
  · exact ⟨onLevel level before, fun u hu => mem_onLevel.mp hu, List.length_filter_le ..,
      hLeads, rfl⟩
  · obtain ⟨first, last, rfl⟩ := List.append_of_mem hMem
    rw [onLevel_append, onLevel_cons, if_pos hLevel] at hLeads
    refine ⟨onLevel level last, ?_, ?_, ?_, ?_⟩
    · intro u hu
      obtain ⟨hLast, hHeight⟩ := mem_onLevel.mp hu
      exact ⟨List.mem_append_right _ (List.mem_cons_of_mem _ hLast), hHeight⟩
    · have hLength := List.length_filter_le (fun u : Tower => decide (level < u.height.val)) last
      simp only [List.length_append, List.length_cons]
      exact Nat.le_trans hLength (by omega)
    · rw [List.append_assoc] at hLeads
      exact (leads_append.mp hLeads).2
    · rw [lastOn, onLevel_append, onLevel_cons, if_pos hLevel]
      simp [List.getLast?_append, List.getLast?_cons]

theorem Linked.next?_last {a : Arena} {before after : List Tower} (h : a.Linked (before ++ after))
    {level : Nat} (hLevel : level < maxHeight) :
    a.next? (lastOn level before).slot level =
      some (linkTo (onLevel level after)) :=
  (h.leads hLevel).1.next?_last

theorem Linked.next?_head {a : Arena} {towers : List Tower} (h : a.Linked towers) {level : Nat}
    (hLevel : level < maxHeight) :
    a.next? headSlot level = some (linkTo (onLevel level towers)) := by
  rw [← List.nil_append towers] at h
  exact h.next?_last hLevel

end Arena

namespace SkipList

/-- The path to the place after some towers: on each level the last of them that stands on it. -/
def pathTo (before : List Tower) : Path :=
  (List.range maxHeight).map fun level => (lastOn level before).slot

theorem getElem?_pathTo (before : List Tower) {level : Nat} (h : level < maxHeight) :
    (pathTo before)[level]? = some (lastOn level before).slot := by
  simp [pathTo, h]

theorem advance?_eq {a : Arena} {test : Node → Bool} {level fuel : Nat} {t : Tower}
    {passing failing : List Tower} (hLeads : a.Leads level t (passing ++ failing) none)
    (hPass : ∀ u ∈ passing, a.Rates test u true) (hFail : ∀ u ∈ failing, a.Rates test u false)
    (hFuel : passing.length < fuel) :
    advance? a test level fuel t.slot = some (passing.getLastD t).slot := by
  -- The fuel outlasts the towers that pass, so the walk ends at the first that fails.
  induction fuel generalizing t passing with
  | zero => exact absurd hFuel (Nat.not_lt_zero _)
  | succ fuel ih =>
    cases passing with
    | nil =>
      cases failing with
      | nil =>
        have hNext : a.next? t.slot level = some none := hLeads
        simp [advance?, hNext]
      | cons u rest =>
        obtain ⟨node, hNode, hTest⟩ := hFail u List.mem_cons_self
        simp [advance?, hLeads.1, hNode, hTest]
    | cons u rest =>
      obtain ⟨node, hNode, hTest⟩ := hPass u List.mem_cons_self
      have hRest := ih hLeads.2 (fun v hv => hPass v (List.mem_cons_of_mem u hv))
        (Nat.lt_of_succ_lt_succ hFuel)
      simp only [advance?, hLeads.1, hNode, hTest, List.getLastD_cons, Option.bind_eq_bind,
        Option.bind_some, if_true]
      exact hRest

variable {a : Arena} {test : Node → Bool} {before after : List Tower}

/-- Each level is walked from where the one above ended, which is a tower on this level too. -/
theorem descend?_eq (hLinked : a.Linked (before ++ after))
    (hPass : ∀ u ∈ before, a.Rates test u true) (hFail : ∀ u ∈ after, a.Rates test u false)
    (hSize : before.length < a.nodes.size) {levels : Nat} {t : Tower} (hTower : t ∈ head :: before)
    (hLevels : levels ≤ t.height.val) :
    descend? a test levels t.slot =
      some ((List.range levels).map fun level => (lastOn level before).slot) := by
  induction levels generalizing t with
  | zero => rfl
  | succ level ih =>
    obtain ⟨between, hBetween, hLength, hLeads, hLast⟩ := hLinked.leads_from hTower hLevels
    have hStop : advance? a test level a.nodes.size t.slot =
        some (lastOn level before).slot := by
      rw [← hLast]
      refine advance?_eq hLeads ?_ ?_ (Nat.lt_of_le_of_lt hLength hSize)
      · intro u hu
        exact hPass u (hBetween u hu).1
      · intro u hu
        exact hFail u (mem_onLevel.mp hu).1
    have hLower : descend? a test level (lastOn level before).slot =
        some ((List.range level).map fun level => (lastOn level before).slot) := by
      rcases lastOn_mem level before with hHead | ⟨hMem, hHeight⟩
      · rw [hHead]
        apply ih List.mem_cons_self
        exact Nat.le_trans (Nat.le_of_succ_le hLevels) t.height.le_max
      · exact ih (List.mem_cons_of_mem _ hMem) (Nat.le_of_lt hHeight)
    simp [descend?, hStop, hLower, List.range_succ]

theorem seek?_eq (hLinked : a.Linked (before ++ after))
    (hPass : ∀ u ∈ before, a.Rates test u true) (hFail : ∀ u ∈ after, a.Rates test u false)
    (hSize : before.length < a.nodes.size) {level : Nat} (hLevel : level ≤ maxHeight)
    (hHeight : ∀ u ∈ before, u.height.val ≤ level) :
    seek? a level test = some (pathTo before) := by
  have hDescend := descend?_eq hLinked hPass hFail hSize List.mem_cons_self hLevel
  have hUpper : (List.range' level (maxHeight - level)).map
      (fun level => (lastOn level before).slot) =
        List.replicate (maxHeight - level) Arena.headSlot := by
    apply List.eq_replicate_iff.mpr
    constructor
    · simp
    · intro slot hSlot
      obtain ⟨upper, hUpper, rfl⟩ := List.mem_map.mp hSlot
      have hLe := (List.mem_range'_1.mp hUpper).1
      rw [lastOn, onLevel_eq_nil fun u hu => Nat.le_trans (hHeight u hu) hLe]
      rfl
  have hRange : List.range maxHeight =
      List.range level ++ List.range' level (maxHeight - level) := by
    have hAppend := List.range'_append_1 (s := 0) (m := level) (n := maxHeight - level)
    rw [Nat.zero_add, Nat.add_sub_cancel' hLevel] at hAppend
    rw [List.range_eq_range', List.range_eq_range', hAppend]
  rw [seek?, show Arena.headSlot = head.slot from rfl, hDescend, pathTo, hRange, List.map_append,
    hUpper]
  rfl

theorem after?_pathTo (hLinked : a.Linked (before ++ after)) :
    after? a (pathTo before) = some (Arena.linkTo after) := by
  have hNext := hLinked.next?_last zero_lt_maxHeight
  rw [onLevel_zero after] at hNext
  simp [after?, getElem?_pathTo before zero_lt_maxHeight, hNext]

end SkipList
end Keyspace
