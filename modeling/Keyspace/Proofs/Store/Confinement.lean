import Keyspace.Proofs.Store.Cells
import Keyspace.Proofs.Store.Intersection

/-! # Confinement: each operation of a namespace keeps to the keys that it is given -/
namespace Keyspace
open Table
set_option autoImplicit false

namespace SkipList

theorem Realizes.congr {α : Type} {result other : α × SkipList} {expected : α × ScoreMap}
    (h : Realizes (some result) expected) (hOther : Realizes (some other) expected) :
    result.1 = other.1 ∧ result.2.scores = other.2.scores := by
  obtain ⟨l, -, hResult, -, hScores⟩ := h
  obtain ⟨m, -, hSame, -, hOther⟩ := hOther
  cases hResult
  cases hSame
  exact ⟨rfl, hScores.trans hOther.symm⟩

namespace Sound

variable {l m : SkipList}

theorem insert_congr (hl : l.Sound) (hm : m.Sound) (h : l.scores = m.scores) (member : String)
    (score : Score) :
    (l.insert member score).1 = (m.insert member score).1 ∧
      (l.insert member score).2.scores = (m.insert member score).2.scores := by
  obtain ⟨_, hl⟩ := hl
  obtain ⟨_, hm⟩ := hm
  exact (hl.realizes_insert member score).congr (h ▸ hm.realizes_insert member score)

theorem remove_congr (hl : l.Sound) (hm : m.Sound) (h : l.scores = m.scores) (member : String) :
    (l.remove member).1 = (m.remove member).1 ∧
      (l.remove member).2.scores = (m.remove member).2.scores := by
  obtain ⟨_, hl⟩ := hl
  obtain ⟨_, hm⟩ := hm
  exact (hl.realizes_remove member).congr (h ▸ hm.realizes_remove member)

theorem removeRange_congr (hl : l.Sound) (hm : m.Sound) (h : l.scores = m.scores)
    (minScore maxScore : Score) (offset count : Nat) :
    (l.removeRange minScore maxScore offset count).1 =
        (m.removeRange minScore maxScore offset count).1 ∧
      (l.removeRange minScore maxScore offset count).2.scores =
        (m.removeRange minScore maxScore offset count).2.scores := by
  obtain ⟨_, hl⟩ := hl
  obtain ⟨_, hm⟩ := hm
  exact (hl.realizes_removeRange minScore maxScore offset count).congr
    (h ▸ hm.realizes_removeRange minScore maxScore offset count)

theorem range_congr (hl : l.Sound) (hm : m.Sound) (h : l.scores = m.scores)
    (minScore maxScore : Score) (offset count : Nat) :
    l.range minScore maxScore offset count = m.range minScore maxScore offset count := by
  obtain ⟨_, hl⟩ := hl
  obtain ⟨_, hm⟩ := hm
  rw [SkipList.range, SkipList.range, hl.range?_eq, hm.range?_eq, h]

theorem query_congr (hl : l.Sound) (hm : m.Sound) (h : l.scores = m.scores) (minScore : Score)
    (minMember : String) (maxScore : Score) (maxMember : String) (offset count : Nat) :
    l.query minScore minMember maxScore maxMember offset count =
      m.query minScore minMember maxScore maxMember offset count := by
  obtain ⟨_, hl⟩ := hl
  obtain ⟨_, hm⟩ := hm
  rw [SkipList.query, SkipList.query, hl.query?_eq, hm.query?_eq, h]

end Sound
end SkipList

namespace SortedSets

variable {sets others : SortedSets} {key : String}

/-- Where two sorted sets look the same, there is none under the key, or two with the same scores. -/
theorem Sound.alike (h : sets.Sound) (hOthers : others.Sound)
    (hKey : sets[key]?.map SkipList.scores = others[key]?.map SkipList.scores) :
    (sets[key]? = none ∧ others[key]? = none) ∨
      ∃ l m : SkipList, sets[key]? = some l ∧ others[key]? = some m ∧ l.Sound ∧ m.Sound ∧
        l.scores = m.scores := by
  cases hFound : sets[key]? with
  | none =>
    rw [hFound, Option.map_none, eq_comm, Option.map_eq_none_iff] at hKey
    exact .inl ⟨rfl, hKey⟩
  | some l =>
    rw [hFound, Option.map_some, eq_comm, Option.map_eq_some_iff] at hKey
    obtain ⟨m, hOther, hScores⟩ := hKey
    exact .inr ⟨l, m, rfl, hOther, h key l hFound, hOthers key m hOther, hScores.symm⟩

theorem map_insert_self (l : SkipList) :
    (sets.insert key l)[key]?.map SkipList.scores = some l.scores := by
  rw [Std.ExtTreeMap.getElem?_insert_self, Option.map_some]

theorem frame_add (coins : Coins) (sets : SortedSets) (score : Score) (member : String)
    {other : String} (h : key ≠ other) : (sets.add coins key score member).2[other]? = sets[other]? := by
  rw [add]
  split
  · rfl
  · exact getElem?_insert_of_ne h _

theorem Sound.add_congr (h : sets.Sound) (hOthers : others.Sound)
    (hKey : sets[key]?.map SkipList.scores = others[key]?.map SkipList.scores)
    (coins more : Coins) (score : Score) (member : String) :
    (sets.add coins key score member).1 = (others.add more key score member).1 ∧
      (sets.add coins key score member).2[key]?.map SkipList.scores =
        (others.add more key score member).2[key]?.map SkipList.scores := by
  have hList : (sets.getD key (.empty coins)).Sound := Each.getD h _ (SkipList.sound_empty coins)
  have hOther : (others.getD key (.empty more)).Sound :=
    Each.getD hOthers _ (SkipList.sound_empty more)
  have hScores : (sets.getD key (.empty coins)).scores = (others.getD key (.empty more)).scores := by
    rw [Std.ExtTreeMap.getD_eq_getD_getElem?, Std.ExtTreeMap.getD_eq_getD_getElem?]
    rcases h.alike hOthers hKey with ⟨hNone, hMissing⟩ | ⟨l, m, hSome, hFound, -, -, hSame⟩
    · rw [hNone, hMissing]
      rfl
    · rw [hSome, hFound]
      exact hSame
  obtain ⟨hAnswer, hLeft⟩ := hList.insert_congr hOther hScores member score
  rw [SortedSets.add, SortedSets.add]
  split
  · exact ⟨rfl, hKey⟩
  · dsimp only
    rw [map_insert_self, map_insert_self, hLeft]
    exact ⟨hAnswer, rfl⟩

theorem confined_add (key : String) (score : Score) (member : String) {α : Type}
    (reply : Bool → α) :
    Confined Store.Sound Store.held Store.seen
      (fun s => (reply (s.sortedSets.add (s.chance.coins key) key score member).1,
        { s with sortedSets := (s.sortedSets.add (s.chance.coins key) key score member).2 }))
      [⟨.sortedSets, key⟩] :=
  Store.confined_sortedSet (fun coins sets => sets.add coins key score member)
    (fun coins sets _ hOther => sets.frame_add coins score member hOther)
    (fun coins more _ _ h hOthers hKey => h.add_congr hOthers hKey coins more score member) reply

/-- An operation that changes a sorted set, and only answers if there is none. -/
theorem confined_change {α β : Type} (run : SortedSets → α × SortedSets) (absent : α)
    (change : SkipList → α × SkipList)
    (hChange : ∀ l m : SkipList, l.Sound → m.Sound → l.scores = m.scores →
      (change l).1 = (change m).1 ∧ (change l).2.scores = (change m).2.scores)
    (hNone : ∀ sets, sets[key]? = none → run sets = (absent, sets))
    (hSome : ∀ sets l, sets[key]? = some l →
      run sets = ((change l).1, sets.insert key (change l).2)) (reply : α → β) :
    Confined Store.Sound Store.held Store.seen
      (fun s => (reply (run s.sortedSets).1, { s with sortedSets := (run s.sortedSets).2 }))
      [⟨.sortedSets, key⟩] := by
  refine Store.confined_sortedSet (fun _ sets => run sets) ?_ ?_ reply
  · intro _ sets other hOther
    cases hFound : sets[key]? with
    | none => rw [hNone sets hFound]
    | some l =>
      rw [hSome sets l hFound]
      exact getElem?_insert_of_ne hOther _
  · intro _ _ sets more h hMore hKey
    rcases h.alike hMore hKey with ⟨hGone, hMissing⟩ | ⟨l, m, hl, hm, hSound, hOther, hScores⟩
    · rw [hNone sets hGone, hNone more hMissing]
      exact ⟨rfl, hKey⟩
    · obtain ⟨hAnswer, hLeft⟩ := hChange l m hSound hOther hScores
      rw [hSome sets l hl, hSome more m hm, map_insert_self, map_insert_self]
      exact ⟨hAnswer, congrArg some hLeft⟩

theorem confined_remove (key member : String) {α : Type} (reply : Bool → α) :
    Confined Store.Sound Store.held Store.seen
      (fun s => (reply (s.sortedSets.remove key member).1,
        { s with sortedSets := (s.sortedSets.remove key member).2 }))
      [⟨.sortedSets, key⟩] := by
  refine confined_change (fun sets => sets.remove key member) false
    (fun list => list.remove member) ?_ ?_ ?_ reply
  · intro l m hl hm hScores
    exact hl.remove_congr hm hScores member
  · intro sets hNone
    rw [remove, hNone]
  · intro sets list hSome
    rw [remove, hSome]

theorem confined_removeRange (key : String) (minScore maxScore : Score) (offset count : Nat)
    {α : Type} (reply : Nat → α) :
    Confined Store.Sound Store.held Store.seen
      (fun s => (reply (s.sortedSets.removeRange key minScore maxScore offset count).1,
        { s with sortedSets := (s.sortedSets.removeRange key minScore maxScore offset count).2 }))
      [⟨.sortedSets, key⟩] := by
  refine confined_change (fun sets => sets.removeRange key minScore maxScore offset count) 0
    (fun list => list.removeRange minScore maxScore offset count) ?_ ?_ ?_ reply
  · intro l m hl hm hScores
    exact hl.removeRange_congr hm hScores minScore maxScore offset count
  · intro sets hNone
    rw [removeRange, hNone]
  · intro sets list hSome
    rw [removeRange, hSome]

end SortedSets

namespace Strings

theorem confined_put (key value : String) :
    ConfinedTo (fun strings => ((), Strings.put strings key value)) [key] :=
  confined_insert fun _ _ _ => ⟨rfl, rfl⟩

theorem confined_remove (key : String) :
    ConfinedTo (fun strings => Strings.remove strings key) [key] := by
  apply confined_at_key
  · intro strings other hOther
    rw [remove, Std.ExtTreeMap.getElem?_erase, if_neg (mt Std.compare_eq_iff_eq.mp hOther)]
  · intro strings others h
    simp only [remove, Std.ExtTreeMap.contains_eq_isSome_getElem?, h,
      Std.ExtTreeMap.getElem?_erase_self, and_self]

theorem confined_add (key : String) (amount : Int64) :
    ConfinedTo (fun strings => Strings.add strings key amount) [key] := by
  apply confined_at_key
  · intro strings other hOther
    have hKnown : (strings.insertIfNew key Counter.initial)[other]? = strings[other]? := by
      rw [Std.ExtTreeMap.getElem?_insertIfNew,
        if_neg fun h => hOther (Std.compare_eq_iff_eq.mp h.1)]
    rw [add]
    split
    · exact hKnown
    · exact (getElem?_insert_of_ne hOther _).trans hKnown
  · intro strings others h
    have hKnown : (strings.insertIfNew key Counter.initial)[key]? =
        (others.insertIfNew key Counter.initial)[key]? := by
      simp only [Std.ExtTreeMap.getElem?_insertIfNew, ← Std.ExtTreeMap.contains_iff_mem,
        Std.ExtTreeMap.contains_eq_isSome_getElem?, h]
    simp only [add, getD_congr hKnown]
    split
    · exact ⟨rfl, hKnown⟩
    · simp only [Std.ExtTreeMap.getElem?_insert_self, and_self]

end Strings

namespace Lists

theorem confined_push (d : Direction) (key value : String) :
    ConfinedTo (fun lists => Lists.push lists d key value) [key] :=
  confined_insert fun _ _ h => by simp only [getD_congr h, and_self]

theorem confined_pop (d : Direction) (key : String) :
    ConfinedTo (fun lists => Lists.pop lists d key) [key] := by
  apply confined_at_key
  · intro lists other hOther
    simp only [pop]
    split <;> exact getElem?_insert_of_ne hOther _
  · intro lists others h
    simp only [pop, getD_congr h]
    split <;> simp only [Std.ExtTreeMap.getElem?_insert_self, and_self]

theorem confined_length (key : String) :
    ConfinedTo (fun lists => Lists.length lists key) [key] :=
  confined_insert fun _ _ h => by simp only [getD_congr h, and_self]

theorem confined_move (source destination fromEnd toEnd : String) :
    ConfinedTo (fun lists => Lists.move lists source destination fromEnd toEnd)
      [source, destination] := by
  constructor
  · intro lists other hOther
    have hSource : source ≠ other := by
      rintro rfl
      exact hOther List.mem_cons_self
    have hDestination : destination ≠ other := by
      rintro rfl
      exact hOther (List.mem_cons_of_mem _ List.mem_cons_self)
    simp only [look, move]
    split
    · exact getElem?_insert_of_ne hSource _
    · split
      · exact getElem?_insert_of_ne hSource _
      · split
        · exact getElem?_insert_of_ne hSource _
        · rw [getElem?_insert_of_ne hDestination, getElem?_insert_of_ne hSource]
  · intro lists others _ _ h
    have hSource : lists[source]? = others[source]? := h source List.mem_cons_self
    simp only [move, getD_congr hSource]
    split
    · exact ⟨rfl, agree_insert h source _⟩
    · split
      · exact ⟨rfl, agree_insert h source _⟩
      · rename_i value rest hPop
        split
        · exact ⟨rfl, agree_insert h source _⟩
        · -- the source is written first, and may be the destination
          have hTaken := agree_insert h source rest
          have hDestination := hTaken destination (List.mem_cons_of_mem _ List.mem_cons_self)
          rw [getD_congr hDestination]
          exact ⟨rfl, agree_insert hTaken destination _⟩

theorem confined_trim (key : String) (start stop : Int64) :
    ConfinedTo (fun lists => Lists.trim lists key start stop) [key] := by
  apply confined_at_key
  · intro lists other hOther
    simp only [trim]
    split
    · rfl
    · split <;> exact getElem?_insert_of_ne hOther _
  · intro lists others h
    simp only [trim, h]
    cases others[key]? with
    | none => exact ⟨rfl, h⟩
    | some list =>
      dsimp only
      split <;> simp only [Std.ExtTreeMap.getElem?_insert_self, and_self]

end Lists

namespace Sets

theorem confined_add (key member : String) :
    ConfinedTo (fun sets => Sets.add sets key member) [key] :=
  confined_insert fun _ _ h => by simp only [getD_congr h, and_self]

theorem confined_remove (key member : String) :
    ConfinedTo (fun sets => Sets.remove sets key member) [key] := by
  apply confined_change none fun set => (some (set.contains member).toNat, set.erase member)
  · intro sets hNone
    rw [remove, hNone]
  · intro sets set hSome
    rw [remove, hSome]

theorem inter?_congr {keys : List String} {sets others : Sets} (h : Agree look keys sets others)
    (listing other : Listing) : sets.inter? listing keys = others.inter? other keys := by
  have hFound : (keys.mapM fun key => sets[key]?) = keys.mapM fun key => others[key]? := by
    induction keys with
    | nil => rfl
    | cons key rest ih =>
      obtain ⟨hKey, hRest⟩ := List.forall_mem_cons.mp h
      have hFirst : sets[key]? = others[key]? := hKey
      rw [List.mapM_cons, List.mapM_cons, ih hRest, hFirst]
  rw [others.inter?_listing other listing, inter?, inter?, hFound]

end Sets

namespace Hashes

theorem confined_put (key : String) (pairs : List (String × String)) :
    ConfinedTo (fun hashes => Hashes.put hashes key pairs) [key] :=
  confined_insert fun _ _ h => by simp only [getD_congr h, and_self]

theorem confined_add (key field : String) (amount : Int64) :
    ConfinedTo (fun hashes => Hashes.add hashes key field amount) [key] := by
  apply confined_at_key
  · intro hashes other hOther
    simp only [add]
    split
    · rfl
    · split
      · rfl
      · exact getElem?_insert_of_ne hOther _
  · intro hashes others h
    simp only [add, h]
    cases others[key]? with
    | none => exact ⟨rfl, h⟩
    | some hash =>
      dsimp only
      split
      · exact ⟨rfl, h⟩
      · simp only [Std.ExtTreeMap.getElem?_insert_self, and_self]

end Hashes
end Keyspace
