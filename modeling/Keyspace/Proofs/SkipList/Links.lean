import Keyspace.SkipList.Basic

/-! # Links: which slots lead on from which on a level, and what a change to one link changes -/
namespace Keyspace
set_option autoImplicit false

/-- A linked node as the order of a list has it: its slot, on how many levels it stands, and the
member and the score that it holds. -/
structure Tower where
  slot : Slot
  height : Height
  member : String
  score : Score
  deriving DecidableEq, Repr

namespace Tower

theorem zero_lt_maxHeight : 0 < maxHeight := by decide

def head : Tower := ⟨Arena.headSlot, ⟨maxHeight, by decide, Nat.le_refl _⟩, "", Score.negInfinity⟩

def onLevel (level : Nat) (towers : List Tower) : List Tower :=
  towers.filter fun t => level < t.height.val

theorem mem_onLevel {level : Nat} {towers : List Tower} {t : Tower} :
    t ∈ onLevel level towers ↔ t ∈ towers ∧ level < t.height.val := by
  simp [onLevel]

theorem onLevel_append (level : Nat) (before after : List Tower) :
    onLevel level (before ++ after) = onLevel level before ++ onLevel level after :=
  List.filter_append ..

theorem onLevel_cons (level : Nat) (t : Tower) (towers : List Tower) :
    onLevel level (t :: towers) =
      if level < t.height.val then t :: onLevel level towers else onLevel level towers := by
  simp [onLevel, List.filter_cons]

theorem onLevel_zero (towers : List Tower) : onLevel 0 towers = towers := by
  apply List.filter_eq_self.mpr
  intro t _
  exact decide_eq_true t.height.one_le

theorem onLevel_eq_nil {level : Nat} {towers : List Tower}
    (h : ∀ t ∈ towers, t.height.val ≤ level) : onLevel level towers = [] := by
  apply List.filter_eq_nil_iff.mpr
  intro t ht
  simpa using h t ht

def Apart (towers : List Tower) : Prop := ((head :: towers).map slot).Nodup

theorem Apart.sublist {towers others : List Tower} (h : Apart towers)
    (hSub : others.Sublist towers) : Apart others :=
  List.Nodup.sublist ((hSub.cons_cons head).map slot) h

end Tower

namespace Arena
open Tower

def Holds (a : Arena) (t : Tower) : Prop :=
  ∃ node, a.nodes[t.slot]? = some node ∧ node.member = t.member ∧ node.score = t.score ∧
    node.height = t.height.val

/-- On a level a tower leads to the first of the towers given, each of them to the one after it,
and the last one to a given link. -/
def Leads (a : Arena) (level : Nat) : Tower → List Tower → Option Slot → Prop
  | t, [], stop => a.next? t.slot level = some stop
  | t, next :: rest, stop =>
    a.next? t.slot level = some (some next.slot) ∧ a.Leads level next rest stop

def Trails (a : Arena) (level : Nat) : List Tower → Prop
  | [] => True
  | t :: rest => a.Leads level t rest none

def linkTo (towers : List Tower) : Option Slot := towers.head?.map slot

def Linked (a : Arena) (towers : List Tower) : Prop :=
  ∀ level < maxHeight, a.Leads level head (onLevel level towers) none

theorem Holds.next? {a : Arena} {t : Tower} {level : Nat} (h : a.Holds t)
    (hLevel : level < t.height.val) : ∃ next, a.next? t.slot level = some next := by
  obtain ⟨node, hNode, -, -, hHeight⟩ := h
  have hSize : level < node.forward.size := by
    rw [← Node.height, hHeight]
    exact hLevel
  exact ⟨node.forward[level], by simp [Arena.next?, hNode, hSize]⟩

theorem leads_append {a : Arena} {level : Nat} {t : Tower} {before after : List Tower} :
    a.Leads level t (before ++ after) none ↔
      a.Leads level t before (linkTo after) ∧ a.Trails level after := by
  induction before generalizing t with
  | nil => cases after <;> simp [Leads, Trails, linkTo]
  | cons next rest ih => simp [Leads, ih, and_assoc]

theorem Leads.next?_last {a : Arena} {level : Nat} {t : Tower} {towers : List Tower}
    {stop : Option Slot} (h : a.Leads level t towers stop) :
    a.next? (towers.getLastD t).slot level = some stop := by
  induction towers generalizing t with
  | nil => exact h
  | cons next rest ih =>
    rw [List.getLastD_cons]
    exact ih h.2

theorem Leads.congr {a b : Arena} {level : Nat} {t : Tower} {towers : List Tower}
    {stop : Option Slot} (h : a.Leads level t towers stop)
    (hSame : ∀ u ∈ t :: towers, b.next? u.slot level = a.next? u.slot level) :
    b.Leads level t towers stop := by
  induction towers generalizing t with
  | nil => exact (hSame t List.mem_cons_self).trans h
  | cons next rest ih =>
    refine ⟨(hSame t List.mem_cons_self).trans h.1, ih h.2 ?_⟩
    intro u hu
    exact hSame u (List.mem_cons_of_mem t hu)

theorem Trails.congr {a b : Arena} {level : Nat} {towers : List Tower} (h : a.Trails level towers)
    (hSame : ∀ u ∈ towers, b.next? u.slot level = a.next? u.slot level) :
    b.Trails level towers := by
  cases towers with
  | nil => exact trivial
  | cons t rest => exact Leads.congr h hSame

/-- A change to the last tower's link changes where the towers lead, and nothing else. -/
theorem Leads.redirect {a b : Arena} {level : Nat} {t : Tower} {towers : List Tower}
    {stop next : Option Slot} (h : a.Leads level t towers stop)
    (hNodup : ((t :: towers).map slot).Nodup)
    (hLast : b.next? (towers.getLastD t).slot level = some next)
    (hOther : ∀ u ∈ t :: towers, u.slot ≠ (towers.getLastD t).slot →
      b.next? u.slot level = a.next? u.slot level) :
    b.Leads level t towers next := by
  induction towers generalizing t with
  | nil => exact hLast
  | cons second rest ih =>
    rw [List.getLastD_cons] at hLast hOther
    rw [List.map_cons, List.nodup_cons] at hNodup
    have hFirst : t.slot ≠ (rest.getLastD second).slot := fun hEq =>
      hNodup.1 (hEq ▸ List.mem_map_of_mem List.getLastD_mem_cons)
    refine ⟨(hOther t List.mem_cons_self hFirst).trans h.1, ih h.2 hNodup.2 hLast ?_⟩
    intro u hu
    exact hOther u (List.mem_cons_of_mem t hu)

structure Relinked (a b : Arena) : Prop where
  free : b.free = a.free
  size : b.nodes.size = a.nodes.size
  holds : ∀ t, a.Holds t → b.Holds t

theorem Relinked.refl (a : Arena) : a.Relinked a := ⟨rfl, rfl, fun _ h => h⟩

theorem Relinked.trans {a b c : Arena} (h : a.Relinked b) (h' : b.Relinked c) : a.Relinked c :=
  ⟨h'.free.trans h.free, h'.size.trans h.size, fun t ht => h'.holds t (h.holds t ht)⟩

theorem setNext?_of_next? {a : Arena} {slot : Slot} {level : Nat} {old : Option Slot}
    (h : a.next? slot level = some old) (new : Option Slot) :
    ∃ b, a.setNext? slot level new = some b ∧ a.Relinked b ∧ b.next? slot level = some new ∧
      ∀ s i, s ≠ slot ∨ i ≠ level → b.next? s i = a.next? s i := by
  obtain ⟨node, hNode, hForward⟩ := Option.bind_eq_some_iff.mp h
  obtain ⟨hLevel, -⟩ := Array.getElem?_eq_some_iff.mp hForward
  obtain ⟨hSlot, hEq⟩ := Array.getElem?_eq_some_iff.mp hNode
  let changed : Node := { node with forward := node.forward.setIfInBounds level new }
  have hLook : ∀ s, (a.nodes.setIfInBounds slot changed)[s]? =
      if s = slot then some changed else a.nodes[s]? := by
    intro s
    rw [Array.getElem?_setIfInBounds]
    by_cases hs : s = slot
    · simp [hs, hSlot]
    · simp [hs, Ne.symm hs]
  refine ⟨{ a with nodes := a.nodes.setIfInBounds slot changed }, ?_, ⟨rfl, by simp, ?_⟩, ?_, ?_⟩
  · simp [setNext?, hNode, Node.height, hLevel, changed]
  · rintro t ⟨other, hOther, hMember, hScore, hHeight⟩
    by_cases ht : t.slot = slot
    · rw [ht, hNode] at hOther
      cases hOther
      refine ⟨changed, by rw [hLook, if_pos ht], hMember, hScore, ?_⟩
      rw [← hHeight]
      simp [Node.height, changed]
    · exact ⟨other, by rw [hLook, if_neg ht]; exact hOther, hMember, hScore, hHeight⟩
  · simp [next?, hLook, changed, hLevel]
  · intro s i hNe
    by_cases hs : s = slot
    · have hi : i ≠ level := hNe.resolve_left (not_not_intro hs)
      simp [next?, hs, hLook, hNode, changed, Ne.symm hi]
    · simp [next?, hLook, hs]

end Arena
end Keyspace
