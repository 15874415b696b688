import Keyspace.Proofs.Score.Order
import Keyspace.Proofs.SkipList.Storage

/-! # Well-formed skip lists: levels, order, scores and slots agree on one sequence of towers -/
namespace Keyspace
open Tower
set_option autoImplicit false

namespace Tower

def place (t : Tower) : Place := placeOf t.score t.member

def entry (t : Tower) : ScoredMember := (t.member, t.score)

def Ordered (towers : List Tower) : Prop := towers.Pairwise fun t u => t.place < u.place

/-- The height of the tallest of some towers, or one if there are none. -/
def top (towers : List Tower) : Nat :=
  towers.foldr (fun t highest => max t.height.val highest) 1

theorem top_le_iff {towers : List Tower} {levels : Nat} :
    top towers ≤ levels ↔ 1 ≤ levels ∧ ∀ t ∈ towers, t.height.val ≤ levels := by
  induction towers with
  | nil => simp [top]
  | cons t rest ih =>
    have hTop : top (t :: rest) = max t.height.val (top rest) := rfl
    rw [hTop, Nat.max_le, ih, List.forall_mem_cons]
    exact and_left_comm

theorem one_le_top (towers : List Tower) : 1 ≤ top towers :=
  (top_le_iff.mp (Nat.le_refl (top towers))).1

theorem height_le_top {towers : List Tower} {t : Tower} (ht : t ∈ towers) :
    t.height.val ≤ top towers :=
  (top_le_iff.mp (Nat.le_refl (top towers))).2 t ht

theorem top_le_maxHeight (towers : List Tower) : top towers ≤ maxHeight :=
  top_le_iff.mpr ⟨by decide, fun t _ => t.height.le_max⟩

theorem top_insert (before after : List Tower) (t : Tower) :
    top (before ++ t :: after) = max (top (before ++ after)) t.height.val := by
  apply eq_of_forall_ge_iff
  intro levels
  rw [Nat.max_le, top_le_iff, top_le_iff]
  simp only [List.mem_append, List.mem_cons]
  grind

theorem ordered_insert {before after : List Tower} {t : Tower} :
    Ordered (before ++ t :: after) ↔ Ordered (before ++ after) ∧
      (∀ u ∈ before, u.place < t.place) ∧ ∀ u ∈ after, t.place < u.place := by
  simp only [Ordered, List.pairwise_append, List.pairwise_cons, List.mem_cons]
  grind

/-- What holds of a tower holds of all before it, so it holds up to some place and then no more. -/
theorem Ordered.dropWhile_eq_false {towers : List Tower} (h : Ordered towers) {test : Tower → Bool}
    (hTest : ∀ t ∈ towers, ∀ u ∈ towers, t.place < u.place → test u = true → test t = true) :
    ∀ t ∈ towers.dropWhile test, test t = false := by
  induction towers with
  | nil => simp
  | cons t rest ih =>
    obtain ⟨hFirst, hRest⟩ := List.pairwise_cons.mp h
    rw [List.dropWhile_cons]
    split
    · apply ih hRest
      intro u hu v hv
      exact hTest u (List.mem_cons_of_mem t hu) v (List.mem_cons_of_mem t hv)
    · rename_i hFalse
      intro u hu
      rcases List.mem_cons.mp hu with rfl | hu
      · exact Bool.eq_false_iff.mpr hFalse
      · apply Bool.eq_false_iff.mpr
        intro hTrue
        apply hFalse
        exact hTest t List.mem_cons_self u (List.mem_cons_of_mem t hu) (hFirst u hu) hTrue

end Tower

namespace SkipList

def Recorded (scores : Std.ExtTreeMap String Score) (towers : List Tower) : Prop :=
  ∀ member score, scores[member]? = some score ↔
    ∃ t ∈ towers, t.member = member ∧ t.score = score

structure WellFormed (l : SkipList) (towers : List Tower) : Prop where
  /-- Every slot is the head's, that of one of the towers, or free; and on each level the head leads
  through the towers that stand on it to the end. -/
  arena : l.arena.Carries towers []
  number : ∀ t ∈ towers, t.score ≠ .nan
  ordered : Ordered towers
  level : l.level = top towers
  scores : Recorded l.scores towers

namespace Recorded

variable {scores : Std.ExtTreeMap String Score} {towers others : List Tower} {t : Tower}

theorem of_mem_iff (h : Recorded scores towers) (hMem : ∀ t, t ∈ others ↔ t ∈ towers) :
    Recorded scores others := by
  intro member score
  simp only [h member score, hMem]

theorem insert (h : Recorded scores towers) (hNew : ∀ u ∈ towers, u.member ≠ t.member) :
    Recorded (scores.insert t.member t.score) (t :: towers) := by
  intro member score
  rw [Std.ExtTreeMap.getElem?_insert]
  by_cases hMember : t.member = member
  · subst hMember
    simp only [Std.compare_self, if_true, Option.some.injEq, List.mem_cons, exists_eq_or_imp,
      true_and]
    constructor
    · exact .inl
    · rintro (hScore | ⟨u, hu, hEq, -⟩)
      · exact hScore
      · exact absurd hEq (hNew u hu)
  · have hCompare : compare t.member member ≠ .eq := fun hEq =>
      hMember (Std.LawfulEqOrd.eq_of_compare hEq)
    simp [hCompare, h member score, hMember]

theorem erase (h : Recorded scores (t :: towers)) (hNew : ∀ u ∈ towers, u.member ≠ t.member) :
    Recorded (scores.erase t.member) towers := by
  intro member score
  rw [Std.ExtTreeMap.getElem?_erase]
  by_cases hMember : t.member = member
  · subst hMember
    simp only [Std.compare_self, if_true]
    constructor
    · intro hNone
      exact absurd hNone.symm (Option.some_ne_none score)
    · rintro ⟨u, hu, hEq, -⟩
      exact absurd hEq (hNew u hu)
  · have hCompare : compare t.member member ≠ .eq := fun hEq =>
      hMember (Std.LawfulEqOrd.eq_of_compare hEq)
    simp [hCompare, h member score, hMember]

end Recorded

theorem insert_erase_self (scores : Std.ExtTreeMap String Score) (member : String) (score : Score) :
    (scores.erase member).insert member score = scores.insert member score := by
  apply Std.ExtTreeMap.ext_getElem?
  intro k
  simp only [Std.ExtTreeMap.getElem?_insert, Std.ExtTreeMap.getElem?_erase]
  split <;> rfl

theorem wellFormed_empty (coins : Coins) : (empty coins).WellFormed [] where
  arena := by
    refine ⟨?_, ?_, List.Perm.refl _⟩
    · intro t ht
      rw [List.mem_singleton.mp ht]
      exact ⟨Node.head, rfl, rfl, rfl, rfl⟩
    · intro level hLevel
      simp [Arena.Leads, onLevel, Arena.next?, empty, Arena.empty, head,
        Arena.headSlot, Node.head, Node.unlinked, hLevel]
  number := by simp
  ordered := .nil
  level := rfl
  scores := by
    intro member score
    simp [empty]

theorem rates_of_holds {a : Arena} {t : Tower} {test : Node → Bool} {result : Bool}
    (h : a.Holds t)
    (hTest : ∀ node : Node, node.member = t.member → node.score = t.score → test node = result) :
    a.Rates test t result := by
  obtain ⟨node, hNode, hMember, hScore, -⟩ := h
  exact ⟨node, hNode, hTest node hMember hScore⟩

theorem precedes_iff_of_holds {t : Tower} {score : Score} {member : String} {node : Node}
    (hNumber : t.score ≠ .nan) (hScore : score ≠ .nan) (hMember : node.member = t.member)
    (hEq : node.score = t.score) :
    node.precedes score member = true ↔ t.place < placeOf score member := by
  rw [Node.precedes_iff (hEq ▸ hNumber) hScore, Node.place, hMember, hEq, Tower.place]

theorem seek?_precedes {a : Arena} {before after spare : List Tower} {level : Nat} {score : Score}
    {member : String} (h : a.Carries (before ++ after) spare)
    (hNumber : ∀ t ∈ before ++ after, t.score ≠ .nan) (hScore : score ≠ .nan)
    (hLevel : top (before ++ after) ≤ level) (hMax : level ≤ maxHeight)
    (hBefore : ∀ t ∈ before, t.place < placeOf score member)
    (hAfter : ∀ t ∈ after, ¬ t.place < placeOf score member) :
    seek? a level (fun node => node.precedes score member) = some (pathTo before) := by
  have hLength := h.length_lt
  rw [List.length_append] at hLength
  refine seek?_eq h.linked ?_ ?_ (by omega) hMax ?_
  · intro t ht
    have hMem : t ∈ before ++ after := List.mem_append_left after ht
    apply rates_of_holds (h.holds_of_mem hMem)
    intro node hMember hEq
    exact (precedes_iff_of_holds (hNumber t hMem) hScore hMember hEq).mpr (hBefore t ht)
  · intro t ht
    have hMem : t ∈ before ++ after := List.mem_append_right before ht
    apply rates_of_holds (h.holds_of_mem hMem)
    intro node hMember hEq
    apply Bool.eq_false_iff.mpr
    intro hTrue
    apply hAfter t ht
    exact (precedes_iff_of_holds (hNumber t hMem) hScore hMember hEq).mp hTrue
  · intro t ht
    exact Nat.le_trans (height_le_top (List.mem_append_left after ht)) hLevel

theorem usedLevels?_eq {a : Arena} {towers : List Tower} (h : a.Linked towers) {levels : Nat}
    (hTop : top towers ≤ levels) (hMax : levels ≤ maxHeight) :
    usedLevels? a levels = some (top towers) := by
  induction levels with
  | zero => exact absurd hTop (Nat.not_le_of_lt (one_le_top towers))
  | succ level ih =>
    cases level with
    | zero => rw [usedLevels?.eq_2 a 1 (by simp), Nat.le_antisymm hTop (one_le_top towers)]
    | succ level =>
      have hNext := h.next?_head hMax
      cases hOn : onLevel (level + 1) towers with
      | nil =>
        have hLower : top towers ≤ level + 1 := by
          refine top_le_iff.mpr ⟨Nat.succ_pos level, fun t ht => ?_⟩
          apply Nat.le_of_not_lt
          intro hLt
          exact List.not_mem_nil (hOn ▸ mem_onLevel.mpr ⟨ht, hLt⟩)
        simp [usedLevels?, hNext, hOn, Arena.linkTo, ih hLower (Nat.le_of_succ_le hMax)]
      | cons t rest =>
        have hMem : t ∈ onLevel (level + 1) towers := hOn ▸ List.mem_cons_self
        obtain ⟨ht, hHeight⟩ := mem_onLevel.mp hMem
        have hEq := Nat.le_antisymm hTop (Nat.le_trans hHeight (height_le_top ht))
        simp [usedLevels?, hNext, hOn, Arena.linkTo, hEq]

end SkipList
end Keyspace
