import Mathlib.Data.List.Nodup
import Keyspace.Proofs.SkipList.Splice

/-! # Storage: each slot of an arena is the head's, a linked node's, or free

A node that is about to be linked, or has just been unlinked, has a slot of its own as well; such
nodes are the spare ones. -/
namespace Keyspace
open Tower
set_option autoImplicit false

theorem Tower.Apart.perm {towers others : List Tower} (h : Apart towers)
    (hPerm : towers.Perm others) : Apart others :=
  ((hPerm.cons head).map slot).nodup h

theorem Tower.perm_spare (before after : List Tower) (t : Tower) :
    (before ++ after ++ [t]).Perm (before ++ t :: after) := by
  rw [List.append_assoc]
  exact List.perm_append_comm.append_left before

namespace Arena

/-- An arena holds the linked towers and the spare ones, links the former alone, and uses every slot
exactly once. -/
structure Carries (a : Arena) (towers spare : List Tower) : Prop where
  holds : ∀ t ∈ head :: (towers ++ spare), a.Holds t
  linked : a.Linked towers
  slots : ((head :: (towers ++ spare)).map slot ++ a.free).Perm (List.range a.nodes.size)

variable {a : Arena} {towers spare before after : List Tower} {t : Tower}

namespace Carries

theorem apart (h : a.Carries towers spare) : Apart (towers ++ spare) :=
  (List.nodup_append.mp ((h.slots.nodup_iff).mpr List.nodup_range)).1

theorem size_eq (h : a.Carries towers spare) :
    a.nodes.size = 1 + (towers.length + spare.length) + a.free.length := by
  have hLength := h.slots.length_eq
  simp only [List.length_append, List.length_map, List.length_cons, List.length_range] at hLength
  omega

theorem length_lt (h : a.Carries towers spare) : towers.length < a.nodes.size := by
  have hSize := h.size_eq
  omega

theorem holds_of_mem (h : a.Carries towers spare) (ht : t ∈ towers) : a.Holds t :=
  h.holds t (List.mem_cons_of_mem _ (List.mem_append_left _ ht))

theorem relinked {b : Arena} {towers' spare' : List Tower} (h : a.Carries towers spare)
    (hRelinked : a.Relinked b) (hPerm : (towers' ++ spare').Perm (towers ++ spare))
    (hLinked : b.Linked towers') : b.Carries towers' spare' where
  holds := by
    intro t ht
    exact hRelinked.holds t (h.holds t ((hPerm.cons head).mem_iff.mp ht))
  linked := hLinked
  slots := by
    rw [hRelinked.free, hRelinked.size]
    exact (((hPerm.cons head).map slot).append_right a.free).trans h.slots

theorem link? (h : a.Carries (before ++ after) [t]) :
    ∃ b, SkipList.link? a t.slot (SkipList.pathTo before) = some b ∧
      b.Carries (before ++ t :: after) [] := by
  have hPerm := perm_spare before after t
  have hHolds : a.Holds t := h.holds t (by simp)
  obtain ⟨b, hLink, hRelinked, hLinked⟩ :=
    SkipList.link?_eq h.linked (h.apart.perm hPerm) hHolds
  refine ⟨b, hLink, h.relinked hRelinked ?_ hLinked⟩
  rw [List.append_nil]
  exact hPerm.symm

theorem unlink? (h : a.Carries (before ++ t :: after) []) {levels : Nat}
    (hHeight : t.height.val ≤ levels) (hMax : levels ≤ maxHeight) :
    ∃ b, SkipList.unlink? t.slot (SkipList.pathTo before) (List.range levels) a = some b ∧
      b.Carries (before ++ after) [t] := by
  have hApart := h.apart
  rw [List.append_nil] at hApart
  obtain ⟨b, hUnlink, hRelinked, hLinked⟩ :=
    SkipList.unlink?_eq h.linked hApart hHeight hMax
  refine ⟨b, hUnlink, h.relinked hRelinked ?_ hLinked⟩
  rw [List.append_nil]
  exact perm_spare before after t

end Carries

theorem Holds.congr {b : Arena} (h : a.Holds t) (hSame : b.nodes[t.slot]? = a.nodes[t.slot]?) :
    b.Holds t := by
  obtain ⟨node, hNode, hRest⟩ := h
  exact ⟨node, hSame.trans hNode, hRest⟩

theorem next?_congr {b : Arena} {s : Slot} (hSame : b.nodes[s]? = a.nodes[s]?) (level : Nat) :
    b.next? s level = a.next? s level := by
  simp [next?, hSame]

theorem Linked.congr {b : Arena} (h : a.Linked towers)
    (hSame : ∀ t ∈ head :: towers, ∀ level, b.next? t.slot level = a.next? t.slot level) :
    b.Linked towers := by
  intro level hLevel
  apply (h level hLevel).congr
  intro t ht
  exact hSame t ((List.filter_sublist.cons_cons head).subset ht) level

namespace Carries

/-- A node put into a slot that was free or is new becomes spare. -/
theorem put {b : Arena} (h : a.Carries towers []) {node : Node} {height : Height} {s : Slot}
    (hHeight : node.height = height.val) (hNode : b.nodes[s]? = some node)
    (hSame : ∀ u ∈ head :: towers, b.nodes[u.slot]? = a.nodes[u.slot]?)
    (hSlots : ((head :: towers).map slot ++ s :: b.free).Perm (List.range b.nodes.size)) :
    b.Carries towers [⟨s, height, node.member, node.score⟩] where
  holds := by
    intro u hu
    rw [← List.cons_append] at hu
    rcases List.mem_append.mp hu with hOld | hNew
    · exact (h.holds u (by rwa [List.append_nil])).congr (hSame u hOld)
    · rw [List.mem_singleton.mp hNew]
      exact ⟨node, hNode, rfl, rfl, hHeight⟩
  linked := h.linked.congr fun u hu level => next?_congr (hSame u hu) level
  slots := by
    rw [← List.cons_append, List.map_append, List.append_assoc]
    exact hSlots

theorem alloc? (h : a.Carries towers []) (member : String) (score : Score) (height : Height) :
    ∃ s b, a.alloc? (Node.unlinked member score height.val) = some (s, b) ∧
      b.Carries towers [⟨s, height, member, score⟩] := by
  have hSlots := h.slots
  rw [List.append_nil] at hSlots
  have hHeight : (Node.unlinked member score height.val).height = height.val := by
    simp [Node.unlinked, Node.height]
  cases hFree : a.free with
  | nil =>
    refine ⟨a.nodes.size, { a with nodes := a.nodes.push (Node.unlinked member score height.val) },
      by simp [Arena.alloc?, hFree], h.put hHeight (by simp) ?_ ?_⟩
    · intro u hu
      obtain ⟨node, hNode, -⟩ := h.holds u (by rwa [List.append_nil])
      obtain ⟨hBound, -⟩ := Array.getElem?_eq_some_iff.mp hNode
      simp [Array.getElem?_push, Nat.ne_of_lt hBound]
    · rw [hFree, List.append_nil] at hSlots
      rw [Array.size_push, List.range_succ]
      simpa [hFree] using hSlots.append_right [a.nodes.size]
  | cons s free =>
    rw [hFree] at hSlots
    have hBound : s < a.nodes.size := List.mem_range.mp (hSlots.subset (by simp))
    refine ⟨s, ⟨a.nodes.setIfInBounds s (Node.unlinked member score height.val), free⟩,
      by simp [Arena.alloc?, hFree, hBound], h.put hHeight (by simp [hBound]) ?_ ?_⟩
    · intro u hu
      have hNodup := (hSlots.nodup_iff).mpr List.nodup_range
      have hNe : u.slot ≠ s :=
        (List.nodup_append.mp hNodup).2.2 _ (List.mem_map_of_mem hu) s List.mem_cons_self
      simp [hNe.symm]
    · simpa using hSlots

theorem release? (h : a.Carries towers [t]) :
    ∃ b, a.release? t.slot = some b ∧ b.Carries towers [] := by
  have hApart := h.apart
  have hSlots := h.slots
  have hBound : t.slot < a.nodes.size := List.mem_range.mp (hSlots.subset (by simp))
  have hSame : ∀ u ∈ head :: towers,
      (a.nodes.setIfInBounds t.slot Node.vacant)[u.slot]? = a.nodes[u.slot]? := by
    intro u hu
    have hNe : u.slot ≠ t.slot := hApart.ne hu (by simp)
    simp [hNe.symm]
  refine ⟨_, by rw [Arena.release?, if_pos hBound], ?_, ?_, ?_⟩
  · intro u hu
    rw [List.append_nil] at hu
    refine (h.holds u ?_).congr (hSame u hu)
    rw [← List.cons_append]
    exact List.mem_append_left _ hu
  · exact h.linked.congr fun u hu level => next?_congr (hSame u hu) level
  · rw [← List.cons_append, List.map_append, List.append_assoc] at hSlots
    simpa using hSlots

end Carries

theorem Holds.setScore? (h : a.Holds t) (score : Score) :
    ∃ b, a.setScore? t.slot score = some b ∧ b.free = a.free ∧ b.nodes.size = a.nodes.size ∧
      b.Holds { t with score } ∧ (∀ u, u.slot ≠ t.slot → a.Holds u → b.Holds u) ∧
      ∀ s level, b.next? s level = a.next? s level := by
  obtain ⟨node, hNode, hMember, -, hHeight⟩ := h
  obtain ⟨hBound, -⟩ := Array.getElem?_eq_some_iff.mp hNode
  have hLook : ∀ s, (a.nodes.setIfInBounds t.slot { node with score })[s]? =
      if s = t.slot then some { node with score } else a.nodes[s]? := by
    intro s
    rw [Array.getElem?_setIfInBounds]
    by_cases hs : s = t.slot
    · simp [hs, hBound]
    · simp [hs, Ne.symm hs]
  refine ⟨{ a with nodes := a.nodes.setIfInBounds t.slot { node with score } },
    ?_, rfl, ?_, ?_, ?_, ?_⟩
  · simp [Arena.setScore?, hNode]
  · simp
  · exact ⟨{ node with score }, by simp [hLook], hMember, rfl, hHeight⟩
  · intro u hNe hu
    exact hu.congr (by simp [hLook, hNe])
  · intro s level
    by_cases hs : s = t.slot
    · simp [Arena.next?, hs, hLook, hNode]
    · simp [Arena.next?, hs, hLook]

end Arena

namespace Tower

def rescored (s : Slot) (score : Score) (t : Tower) : Tower :=
  if t.slot = s then { t with score } else t

theorem slot_rescored (s : Slot) (score : Score) (t : Tower) :
    (rescored s score t).slot = t.slot := by
  rw [rescored]
  split <;> rfl

theorem height_rescored (s : Slot) (score : Score) (t : Tower) :
    (rescored s score t).height = t.height := by
  rw [rescored]
  split <;> rfl

theorem map_rescored {s : Slot} {towers : List Tower} (h : ∀ t ∈ towers, t.slot ≠ s)
    (score : Score) : towers.map (rescored s score) = towers := by
  refine (List.map_congr_left fun t ht => ?_).trans (List.map_id towers)
  exact if_neg (h t ht)

end Tower

namespace Arena

variable {a : Arena} {towers spare : List Tower} {t : Tower}

theorem Leads.rescored {level : Nat} {stop : Option Slot} {t' : Tower}
    (h : a.Leads level t towers stop) (hSlot : t'.slot = t.slot) (s : Slot) (score : Score) :
    a.Leads level t' (towers.map (Tower.rescored s score)) stop := by
  induction towers generalizing t t' with
  | nil =>
    rw [List.map_nil, Leads, hSlot]
    exact h
  | cons next rest ih =>
    constructor
    · rw [hSlot, slot_rescored]
      exact h.1
    · exact ih h.2 (slot_rescored s score next)

theorem Linked.rescored (h : a.Linked towers) (s : Slot) (score : Score) :
    a.Linked (towers.map (Tower.rescored s score)) := by
  intro level hLevel
  have hFilter : onLevel level (towers.map (Tower.rescored s score)) =
      (onLevel level towers).map (Tower.rescored s score) := by
    simp [onLevel, List.filter_map, Function.comp_def, height_rescored]
  rw [hFilter]
  exact (h level hLevel).rescored rfl s score

theorem Carries.setScore? (h : a.Carries towers spare) (ht : t ∈ towers ++ spare) (score : Score) :
    ∃ b, a.setScore? t.slot score = some b ∧
      b.Carries (towers.map (Tower.rescored t.slot score))
        (spare.map (Tower.rescored t.slot score)) := by
  obtain ⟨b, hSet, hFree, hSize, hNew, hOld, hNext⟩ :=
    (h.holds t (List.mem_cons_of_mem _ ht)).setScore? score
  have hNodup : ((towers ++ spare).map slot).Nodup := (List.nodup_cons.mp h.apart).2
  have hHead : head.slot ≠ t.slot := fun hEq =>
    (List.nodup_cons.mp h.apart).1 (hEq ▸ List.mem_map_of_mem ht)
  refine ⟨b, hSet, ?_, ?_, ?_⟩
  · intro u hu
    rw [← List.map_append] at hu
    rcases List.mem_cons.mp hu with rfl | hu
    · exact hOld head hHead (h.holds head List.mem_cons_self)
    · obtain ⟨v, hv, rfl⟩ := List.mem_map.mp hu
      by_cases hEq : v.slot = t.slot
      · rw [List.inj_on_of_nodup_map hNodup hv ht hEq, Tower.rescored, if_pos rfl]
        exact hNew
      · rw [Tower.rescored, if_neg hEq]
        exact hOld v hEq (h.holds v (List.mem_cons_of_mem _ hv))
  · refine Linked.rescored (h.linked.congr ?_) t.slot score
    intro u _ level
    exact hNext u.slot level
  · have hSlots : ((towers ++ spare).map (Tower.rescored t.slot score)).map slot =
        (towers ++ spare).map slot := by
      simp [Function.comp_def, slot_rescored]
    rw [← List.map_append, List.map_cons, hSlots, hFree, hSize, ← List.map_cons]
    exact h.slots

end Arena
end Keyspace
