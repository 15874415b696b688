import Keyspace.Proofs.SkipList.Seek

/-! # Splicing: linking a node into its levels after a path, and unlinking it

Both work level by level. In between, the node is linked on some levels and not on the others. -/
namespace Keyspace
open Tower
set_option autoImplicit false

theorem Tower.Apart.ne {before after : List Tower} (h : Apart (before ++ after)) {t u : Tower}
    (hBefore : t ∈ head :: before) (hAfter : u ∈ after) : t.slot ≠ u.slot := by
  rw [Apart, ← List.cons_append, List.map_append, List.nodup_append] at h
  exact h.2.2 _ (List.mem_map_of_mem hBefore) _ (List.mem_map_of_mem hAfter)

theorem Tower.Apart.head_ne {towers : List Tower} (h : Apart towers) {t : Tower}
    (ht : t ∈ towers) : Arena.headSlot ≠ t.slot := by
  rw [← List.nil_append towers] at h
  exact h.ne List.mem_cons_self ht

theorem Tower.Apart.nodup_onLevel {before after : List Tower} (h : Apart (before ++ after))
    (level : Nat) : ((head :: onLevel level before).map slot).Nodup :=
  h.sublist (List.filter_sublist.trans (List.sublist_append_left before after))

namespace Arena

/-- A tower stands between others, and is linked on the levels told but on no other. -/
def Spliced (a : Arena) (before : List Tower) (t : Tower) (after : List Tower)
    (linked : Nat → Prop) : Prop :=
  ∀ level < maxHeight,
    (linked level → a.Leads level head (onLevel level before ++ t :: onLevel level after) none) ∧
    (¬ linked level → a.Leads level head (onLevel level before ++ onLevel level after) none)

variable {a b : Arena} {before after : List Tower} {t : Tower}

theorem Linked.spliced {linked : Nat → Prop} (h : a.Linked (before ++ after))
    (hNone : ∀ level, ¬ linked level) : a.Spliced before t after linked := by
  intro level hLevel
  constructor
  · intro hLinked
    exact absurd hLinked (hNone level)
  · intro _
    rw [← onLevel_append]
    exact h level hLevel

theorem Spliced.linked_of_none {linked : Nat → Prop} (h : a.Spliced before t after linked)
    (hNone : ∀ level, ¬ linked level) : a.Linked (before ++ after) := by
  intro level hLevel
  rw [onLevel_append]
  exact (h level hLevel).2 (hNone level)

theorem Linked.spliced_all {linked : Nat → Prop} (h : a.Linked (before ++ t :: after))
    (hAll : ∀ level, linked level ↔ level < t.height.val) : a.Spliced before t after linked := by
  intro level hLevel
  have hLeads := h level hLevel
  rw [onLevel_append, onLevel_cons] at hLeads
  rw [hAll]
  constructor
  · intro hTower
    rwa [if_pos hTower] at hLeads
  · intro hTower
    rwa [if_neg hTower] at hLeads

theorem Spliced.linked_of_all {linked : Nat → Prop} (h : a.Spliced before t after linked)
    (hAll : ∀ level, linked level ↔ level < t.height.val) : a.Linked (before ++ t :: after) := by
  intro level hLevel
  rw [onLevel_append, onLevel_cons]
  by_cases hTower : level < t.height.val
  · rw [if_pos hTower]
    exact (h level hLevel).1 ((hAll level).mpr hTower)
  · rw [if_neg hTower]
    exact (h level hLevel).2 (mt (hAll level).mp hTower)

/-- After the towers before a place a level goes on as the last of them now says, if what it says
leads through to the end. -/
theorem Leads.resplice {level : Nat} {stop : Option Slot} {rest : List Tower}
    (hBefore : a.Leads level head (onLevel level before) stop) (hTrails : b.Trails level rest)
    (hNodup : ((head :: onLevel level before).map slot).Nodup)
    (hLast : b.next? (lastOn level before).slot level = some (linkTo rest))
    (hOther : ∀ u ∈ head :: before, u.slot ≠ (lastOn level before).slot →
      b.next? u.slot level = a.next? u.slot level) :
    b.Leads level head (onLevel level before ++ rest) none := by
  refine leads_append.mpr ⟨hBefore.redirect hNodup hLast ?_, hTrails⟩
  intro u hu
  exact hOther u ((List.filter_sublist.cons_cons head).subset hu)

theorem Trails.cons_iff {level : Nat} {towers : List Tower} :
    a.Trails level (t :: towers) ↔
      a.next? t.slot level = some (linkTo towers) ∧ a.Trails level towers :=
  @leads_append a level t [] towers

theorem lastOn_mem_cons (level : Nat) (before : List Tower) :
    lastOn level before ∈ head :: before :=
  (lastOn_mem level before).elim (fun h => h ▸ List.mem_cons_self)
    fun h => List.mem_cons_of_mem _ h.1

theorem Spliced.linkLevel? {linked : Nat → Prop} (h : a.Spliced before t after linked)
    (hApart : Apart (before ++ t :: after)) (hHolds : a.Holds t) {level : Nat}
    (hLevel : level < t.height.val) (hFree : ¬ linked level) :
    ∃ b, SkipList.linkLevel? t.slot (SkipList.pathTo before) a level = some b ∧ a.Relinked b ∧
      b.Spliced before t after fun i => i = level ∨ linked i := by
  have hMax := Nat.lt_of_lt_of_le hLevel t.height.le_max
  have hApart' : Apart ((before ++ [t]) ++ after) := by simpa using hApart
  obtain ⟨hBefore, hAfter⟩ := leads_append.mp ((h level hMax).2 hFree)
  have hLast : a.next? (lastOn level before).slot level = _ := hBefore.next?_last
  have hMem := lastOn_mem_cons level before
  have hNeTower : (lastOn level before).slot ≠ t.slot := hApart.ne hMem List.mem_cons_self
  -- Two links change: the node's own first, then that of the last tower before it.
  obtain ⟨old, hOld⟩ := hHolds.next? hLevel
  obtain ⟨a', hSet, hRelinked, hNew, hSame⟩ :=
    setNext?_of_next? hOld (linkTo (onLevel level after))
  have hLast' := (hSame (lastOn level before).slot level (.inl hNeTower)).trans hLast
  obtain ⟨b, hSet', hRelinked', hNew', hSame'⟩ := setNext?_of_next? hLast' (some t.slot)
  have hTower : b.next? t.slot level = some (linkTo (onLevel level after)) :=
    (hSame' t.slot level (.inl hNeTower.symm)).trans hNew
  refine ⟨b, ?_, hRelinked.trans hRelinked', ?_⟩
  · rw [SkipList.linkLevel?, SkipList.getElem?_pathTo before hMax]
    simp [hLast, hSet, hSet']
  · intro i hi
    by_cases hEq : i = level
    · subst hEq
      constructor
      · intro _
        refine hBefore.resplice (Trails.cons_iff.mpr ⟨hTower, hAfter.congr ?_⟩)
          (hApart.nodup_onLevel i) hNew' ?_
        · intro u hu
          have hAfterMem := (mem_onLevel.mp hu).1
          rw [hSame' u.slot i (.inl (hApart.ne hMem (List.mem_cons_of_mem t hAfterMem)).symm),
            hSame u.slot i (.inl (hApart'.ne (by simp) hAfterMem).symm)]
        · intro u hu hNe
          rw [hSame' u.slot i (.inl hNe), hSame u.slot i (.inl (hApart.ne hu List.mem_cons_self))]
      · intro hNot
        exact absurd (.inl rfl) hNot
    · have hOther : ∀ slot, b.next? slot i = a.next? slot i := fun slot =>
        (hSame' slot i (.inr hEq)).trans (hSame slot i (.inr hEq))
      constructor
      · intro hLinked
        exact ((h i hi).1 (hLinked.resolve_left hEq)).congr fun u _ => hOther u.slot
      · intro hNot
        exact ((h i hi).2 (mt .inr hNot)).congr fun u _ => hOther u.slot

theorem Spliced.unlinkLevel {linked : Nat → Prop} (h : a.Spliced before t after linked)
    (hApart : Apart (before ++ t :: after)) {level : Nat} (hLevel : level < maxHeight)
    (hLinked : linked level) :
    a.next? (lastOn level before).slot level = some (some t.slot) ∧
      ∃ next b, a.next? t.slot level = some next ∧
        a.setNext? (lastOn level before).slot level next = some b ∧ a.Relinked b ∧
        b.Spliced before t after fun i => i ≠ level ∧ linked i := by
  obtain ⟨hBefore, hRest⟩ := leads_append.mp ((h level hLevel).1 hLinked)
  obtain ⟨hTower, hAfter⟩ := Trails.cons_iff.mp hRest
  have hLast : a.next? (lastOn level before).slot level = some (some t.slot) := hBefore.next?_last
  have hMem := lastOn_mem_cons level before
  obtain ⟨b, hSet, hRelinked, hNew, hSame⟩ :=
    setNext?_of_next? hLast (linkTo (onLevel level after))
  refine ⟨hLast, linkTo (onLevel level after), b, hTower, hSet, hRelinked, ?_⟩
  intro i hi
  by_cases hEq : i = level
  · subst hEq
    constructor
    · intro hBoth
      exact absurd rfl hBoth.1
    · intro _
      refine hBefore.resplice (hAfter.congr ?_) (hApart.nodup_onLevel i) hNew ?_
      · intro u hu
        have hAfterMem := List.mem_cons_of_mem t (mem_onLevel.mp hu).1
        exact hSame u.slot i (.inl (hApart.ne hMem hAfterMem).symm)
      · intro u _ hNe
        exact hSame u.slot i (.inl hNe)
  · constructor
    · intro hBoth
      exact ((h i hi).1 hBoth.2).congr fun u _ => hSame u.slot i (.inr hEq)
    · intro hNot
      exact ((h i hi).2 fun hOn => hNot ⟨hEq, hOn⟩).congr fun u _ => hSame u.slot i (.inr hEq)

theorem Spliced.of_iff {linked linked' : Nat → Prop} (h : a.Spliced before t after linked)
    (hIff : ∀ level, linked level ↔ linked' level) : a.Spliced before t after linked' :=
  (funext fun level => propext (hIff level) : linked = linked') ▸ h

end Arena

namespace SkipList
open Arena

variable {a : Arena} {before after : List Tower} {t : Tower}

theorem foldlM_linkLevel? (hLinked : a.Linked (before ++ after))
    (hApart : Apart (before ++ t :: after)) (hHolds : a.Holds t) {levels : Nat}
    (hLevels : levels ≤ t.height.val) :
    ∃ b, (List.range levels).foldlM (linkLevel? t.slot (pathTo before)) a = some b ∧
      a.Relinked b ∧ b.Spliced before t after fun i => i < levels := by
  induction levels with
  | zero => exact ⟨a, rfl, .refl a, hLinked.spliced fun level => Nat.not_lt_zero level⟩
  | succ level ih =>
    obtain ⟨a', hFold, hRelinked, hSpliced⟩ := ih (Nat.le_of_succ_le hLevels)
    obtain ⟨b, hLink, hRelinked', hSpliced'⟩ :=
      hSpliced.linkLevel? hApart (hRelinked.holds t hHolds) hLevels (Nat.lt_irrefl level)
    refine ⟨b, ?_, hRelinked.trans hRelinked', hSpliced'.of_iff fun i => by omega⟩
    simp [List.range_succ, List.foldlM_append, hFold, hLink]

theorem link?_eq (hLinked : a.Linked (before ++ after)) (hApart : Apart (before ++ t :: after))
    (hHolds : a.Holds t) :
    ∃ b, link? a t.slot (pathTo before) = some b ∧ a.Relinked b ∧
      b.Linked (before ++ t :: after) := by
  obtain ⟨b, hFold, hRelinked, hSpliced⟩ :=
    foldlM_linkLevel? hLinked hApart hHolds (Nat.le_refl t.height.val)
  obtain ⟨node, hNode, -, -, hHeight⟩ := hHolds
  refine ⟨b, ?_, hRelinked, hSpliced.linked_of_all fun _ => .rfl⟩
  simp [link?, hNode, hHeight, hFold]

/-- The first level on which a node does not come right after the path is the first one above its
height. -/
theorem unlink?_range' {levels first : Nat} (hApart : Apart (before ++ t :: after))
    (hSpliced : a.Spliced before t after fun i => first ≤ i ∧ i < t.height.val)
    (hHeight : t.height.val ≤ first + levels) (hMax : first + levels ≤ maxHeight) :
    ∃ b, unlink? t.slot (pathTo before) (List.range' first levels) a = some b ∧ a.Relinked b ∧
      b.Linked (before ++ after) := by
  -- Below `first` the node is unlinked already, and from its height on it never was linked.
  induction levels generalizing a first with
  | zero => exact ⟨a, rfl, .refl a, hSpliced.linked_of_none fun i => by omega⟩
  | succ levels ih =>
    have hFirst : first < maxHeight := by omega
    by_cases hTower : first < t.height.val
    · obtain ⟨hLast, next, b, hNext, hSet, hRelinked, hSpliced'⟩ :=
        hSpliced.unlinkLevel hApart hFirst ⟨Nat.le_refl first, hTower⟩
      have hUpper : b.Spliced before t after fun i => first + 1 ≤ i ∧ i < t.height.val :=
        hSpliced'.of_iff fun i => by omega
      obtain ⟨c, hUnlink, hRelinked', hLinked⟩ := ih hUpper (by omega) (by omega)
      refine ⟨c, ?_, hRelinked.trans hRelinked', hLinked⟩
      simp [List.range'_succ, unlink?, getElem?_pathTo before hFirst, hLast, hNext, hSet, hUnlink]
    · have hNone : a.Linked (before ++ after) := hSpliced.linked_of_none fun i => by omega
      have hLast := hNone.next?_last hFirst
      have hNe : linkTo (onLevel first after) ≠ some t.slot := by
        intro hEq
        obtain ⟨u, hHead, hSlot⟩ := Option.map_eq_some_iff.mp hEq
        have hMem := (mem_onLevel.mp (List.mem_of_mem_head? hHead)).1
        have hApart' : Apart ((before ++ [t]) ++ after) := by simpa using hApart
        exact hApart'.ne (by simp) hMem hSlot.symm
      refine ⟨a, ?_, .refl a, hNone⟩
      simp [List.range'_succ, unlink?, getElem?_pathTo before hFirst, hLast, hNe]

theorem unlink?_eq (hLinked : a.Linked (before ++ t :: after))
    (hApart : Apart (before ++ t :: after)) {levels : Nat} (hHeight : t.height.val ≤ levels)
    (hMax : levels ≤ maxHeight) :
    ∃ b, unlink? t.slot (pathTo before) (List.range levels) a = some b ∧ a.Relinked b ∧
      b.Linked (before ++ after) := by
  rw [List.range_eq_range']
  exact unlink?_range' hApart (hLinked.spliced_all fun i => by omega) (by omega) (by omega)

end SkipList
end Keyspace
