import Keyspace.Proofs.SkipList.Cardinality
import Keyspace.Proofs.Store.Words

/-! # Cardinality in the store: what an operation answers is what it adds to a set, or takes away -/
namespace Keyspace
set_option autoImplicit false

namespace SortedSets

def Sound (sets : SortedSets) : Prop := Each sets fun _ l => l.Sound

variable {sets : SortedSets}

theorem card_eq (sets : SortedSets) (coins : Coins) (key : String) :
    sets.card key = (sets.getD key (SkipList.empty coins)).size := by
  rw [card, Std.ExtTreeMap.getD_eq_getD_getElem?]
  cases sets[key]? <;> rfl

theorem card_of_getElem? {key : String} {l : SkipList} (h : sets[key]? = some l) :
    sets.card key = l.size := by
  rw [card, h]

theorem card_insert_self (sets : SortedSets) (key : String) (l : SkipList) :
    card (sets.insert key l) key = l.size :=
  card_of_getElem? Std.ExtTreeMap.getElem?_insert_self

namespace Sound

theorem add (h : sets.Sound) (coins : Coins) (key : String) (score : Score) (member : String) :
    (sets.add coins key score member).2.Sound := by
  rw [SortedSets.add]
  split
  · exact h
  · obtain ⟨towers, hWellFormed⟩ := Each.getD h _ (SkipList.sound_empty coins)
    exact h.insert (hWellFormed.realizes_insert member score).sound

theorem remove (h : sets.Sound) (key member : String) : (sets.remove key member).2.Sound := by
  rw [SortedSets.remove]
  split
  · exact h
  · rename_i l hFound
    obtain ⟨towers, hWellFormed⟩ := h key l hFound
    exact h.insert (hWellFormed.realizes_remove member).sound

theorem removeRange (h : sets.Sound) (key : String) (minScore maxScore : Score)
    (offset count : Nat) : (sets.removeRange key minScore maxScore offset count).2.Sound := by
  rw [SortedSets.removeRange]
  split
  · exact h
  · rename_i l hFound
    obtain ⟨towers, hWellFormed⟩ := h key l hFound
    exact h.insert (hWellFormed.realizes_removeRange minScore maxScore offset count).sound

theorem card_add (h : sets.Sound) (coins : Coins) (key : String) (score : Score)
    (member : String) : (sets.add coins key score member).2.card key =
      sets.card key + (sets.add coins key score member).1.toNat := by
  rw [SortedSets.add]
  split
  · rfl
  · have hList : (sets.getD key (SkipList.empty coins)).Sound :=
      Each.getD h _ (SkipList.sound_empty coins)
    rw [card_insert_self, card_eq sets coins]
    exact hList.size_insert member score

theorem card_remove (h : sets.Sound) (key member : String) :
    (sets.remove key member).2.card key + (sets.remove key member).1.toNat = sets.card key := by
  rw [SortedSets.remove]
  split
  · rfl
  · rename_i l hFound
    rw [card_insert_self, card_of_getElem? hFound]
    exact (h key l hFound).size_remove member

theorem card_removeRange (h : sets.Sound) (key : String) (minScore maxScore : Score)
    (offset count : Nat) :
    (sets.removeRange key minScore maxScore offset count).2.card key +
      (sets.removeRange key minScore maxScore offset count).1 = sets.card key := by
  rw [SortedSets.removeRange]
  split
  · rfl
  · rename_i l hFound
    rw [card_insert_self, card_of_getElem? hFound]
    exact (h key l hFound).size_removeRange minScore maxScore offset count

theorem length_range_all (h : sets.Sound) {key : String} {count : Nat}
    (hCount : sets.card key ≤ count) :
    (sets.range key .negInfinity .infinity 0 count).length = sets.card key := by
  rw [SortedSets.range]
  split
  · rename_i hNone
    rw [card, hNone]
    rfl
  · rename_i l hFound
    rw [card_of_getElem? hFound] at hCount ⊢
    rw [(h key l hFound).range_all hCount]
    exact ScoreMap.length_entries l.scores

end Sound
end SortedSets

namespace Sets

theorem card_eq (sets : Sets) (key : String) : sets.card key = (sets.getD key ∅).size := by
  rw [card, Std.ExtTreeMap.getD_eq_getD_getElem?]
  cases sets[key]? <;> rfl

theorem card_of_getElem? {sets : Sets} {key : String} {set : Std.ExtTreeSet String}
    (h : sets[key]? = some set) : sets.card key = set.size := by
  rw [card, h]

theorem card_insert_self (sets : Sets) (key : String) (set : Std.ExtTreeSet String) :
    card (sets.insert key set) key = set.size :=
  card_of_getElem? Std.ExtTreeMap.getElem?_insert_self

theorem size_insert (set : Std.ExtTreeSet String) (member : String) :
    (set.insert member).size = set.size + (!set.contains member).toNat := by
  rw [Std.ExtTreeSet.size_insert]
  cases set.contains member <;> rfl

theorem size_erase (set : Std.ExtTreeSet String) (member : String) :
    (set.erase member).size + (set.contains member).toNat = set.size := by
  rw [Std.ExtTreeSet.size_erase]
  cases hContains : set.contains member with
  | false => rfl
  | true =>
    have hPos : set.size ≠ 0 := mt Std.ExtTreeSet.eq_empty_iff_size_eq_zero.mpr
      (Std.ExtTreeSet.ne_empty_of_mem hContains)
    rw [if_pos rfl, Bool.toNat_true]
    omega

theorem card_add (sets : Sets) (key member : String) :
    (sets.add key member).2.card key = sets.card key + (sets.add key member).1 := by
  rw [add, card_insert_self, card_eq]
  exact size_insert _ member

theorem card_remove (sets : Sets) (key member : String) :
    (sets.remove key member).2.card key + (sets.remove key member).1.getD 0 = sets.card key := by
  rw [remove]
  split
  · rfl
  · rename_i set hFound
    rw [card_insert_self, card_of_getElem? hFound]
    exact size_erase set member

end Sets

/-- Every skip list of the store is as the operations leave one. -/
def Store.Sound (s : Store) : Prop := s.sortedSets.Sound

theorem Store.sound_empty (chance : Chance) : (Store.empty chance).Sound := Each.empty

theorem Store.Worded.sound {s : Store} (h : s.Worded) : s.Sound :=
  fun key l hList => (h.sortedSets key l hList).2.1

end Keyspace
