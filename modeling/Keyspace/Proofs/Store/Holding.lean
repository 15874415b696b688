import Keyspace.Proofs.Store.Cardinality
import Keyspace.Proofs.Store.Outcomes

/-! # Holding: what an operation finds is in the store -/
namespace Keyspace
open Text
set_option autoImplicit false

namespace Sets

variable {sets : Sets} {listing : Listing} {member : String}

theorem exists_of_mem_common {all : List (Std.ExtTreeSet String)} (h : member ∈ common listing all) :
    ∃ set ∈ all, member ∈ set := by
  rw [common] at h
  split at h
  · cases h
  · rename_i smallest rest hSorted
    have hMem : smallest ∈ all.mergeSort fun a b => a.size ≤ b.size :=
      hSorted ▸ List.mem_cons_self
    refine ⟨smallest, (List.mergeSort_perm ..).mem_iff.mp hMem, ?_⟩
    have hMember := (List.mem_filter.mp (List.mem_mergeSort.mp h)).1
    exact Std.ExtTreeSet.mem_toList.mp ((listing.perm smallest).mem_iff.mp hMember)

theorem exists_of_mem_mapM {keys : List String} {all : List (Std.ExtTreeSet String)}
    (h : (keys.mapM fun key => sets[key]?) = some all) :
    ∀ set ∈ all, ∃ key : String, sets[key]? = some set := by
  induction keys generalizing all with
  | nil =>
    cases h
    simp
  | cons key rest ih =>
    rw [List.mapM_cons] at h
    obtain ⟨first, hFirst, h⟩ := Option.bind_eq_some_iff.mp h
    obtain ⟨others, hOthers, h⟩ := Option.bind_eq_some_iff.mp h
    cases h
    exact List.forall_mem_cons.mpr ⟨⟨key, hFirst⟩, ih hOthers⟩

end Sets

theorem ScoreMap.mem_of_mem_select {m : ScoreMap} {below within : ScoredMember → Bool} {offset count : Nat}
    {entry : ScoredMember} (h : entry ∈ m.select below within offset count) : entry ∈ entries m :=
  (List.dropWhile_sublist below).subset (List.mem_of_mem_drop
    ((List.takeWhile_sublist within).subset (List.mem_of_mem_take h)))

namespace Store

/-- A store holds the members of its sets and sorted sets, and the values under its keys and
fields. -/
inductive Holds (s : Store) : String → Prop where
  | scored {key : String} {l : SkipList} {member : String} (hList : s.sortedSets[key]? = some l)
      (hMember : member ∈ l.scores) : s.Holds member
  | string {key value : String} (hValue : s.strings[key]? = some value) : s.Holds value
  | listed {key : String} {list : List String} {value : String}
      (hList : s.lists[key]? = some list) (hValue : value ∈ list) : s.Holds value
  | member {key : String} {set : Std.ExtTreeSet String} {member : String}
      (hSet : s.sets[key]? = some set) (hMember : member ∈ set) : s.Holds member
  | field {key : String} {hash : Hash} {field value : String}
      (hHash : s.hashes[key]? = some hash) (hValue : hash[field]? = some value) : s.Holds value

variable {s : Store} {key : String}

theorem Worded.isWord_of_holds (h : s.Worded) {text : String} (hHeld : s.Holds text) :
    IsWord text := by
  cases hHeld with
  | scored hList hMember =>
    obtain ⟨score, hScore⟩ := Option.isSome_iff_exists.mp
      (Std.ExtTreeMap.isSome_getElem?_iff_mem.mpr hMember)
    exact ((h.sortedSets _ _ hList).2.2 _ score hScore).1
  | string hValue => exact (h.strings _ _ hValue).2
  | listed hList hValue => exact (h.lists _ _ hList).2 _ hValue
  | member hSet hMember => exact (h.sets _ _ hSet).2 _ hMember
  | field hHash hValue => exact ((h.hashes _ _ hHash).2 _ _ hValue).2

theorem holds_of_pop {d : Direction} {value : String} {rest : List String}
    (h : d.pop (s.lists.getD key []) = some (value, rest)) : s.Holds value := by
  have hMem : value ∈ s.lists.getD key [] := by
    rw [← Direction.push_pop h]
    exact Direction.mem_push.mpr (.inl rfl)
  rw [Std.ExtTreeMap.getD_eq_getD_getElem?] at hMem
  cases hFound : s.lists[key]? with
  | none => simp [hFound] at hMem
  | some list => exact .listed hFound (by simpa [hFound] using hMem)

theorem holds_of_popped {d : Direction} {value : String}
    (h : (s.lists.pop d key).1 = some value) : s.Holds value := by
  obtain hNone | ⟨found, rest, hPop, hSome⟩ := s.lists.pop_cases d key
  · rw [hNone] at h
    cases h
  · rw [hSome] at h
    cases h
    exact holds_of_pop hPop

theorem holds_of_moved {source destination fromEnd toEnd value : String}
    (h : (s.lists.move source destination fromEnd toEnd).1 = some value) : s.Holds value := by
  obtain hNone | ⟨popEnd, pushEnd, found, rest, -, -, hPop, hSome⟩ :=
    s.lists.move_cases source destination fromEnd toEnd
  · rw [hNone] at h
    cases h
  · rw [hSome] at h
    cases h
    exact holds_of_pop hPop

theorem holds_of_range? {start stop : Int64} {values : List String}
    (h : s.lists.range? key start stop = some values) : ∀ value ∈ values, s.Holds value := by
  obtain ⟨list, hList, rfl⟩ := Option.map_eq_some_iff.mp h
  intro value hValue
  split at hValue
  · cases hValue
  · exact .listed hList (List.mem_of_mem_drop (List.mem_of_mem_take hValue))

theorem holds_of_inter? {listing : Listing} {keys members : List String}
    (h : s.sets.inter? listing keys = some members) : ∀ member ∈ members, s.Holds member := by
  obtain ⟨all, hAll, rfl⟩ := Option.map_eq_some_iff.mp h
  intro member hMember
  obtain ⟨set, hSet, hMem⟩ := Sets.exists_of_mem_common hMember
  obtain ⟨key, hKey⟩ := Sets.exists_of_mem_mapM hAll set hSet
  exact .member hKey hMem

theorem holds_of_value? {field value : String} (h : s.hashes.value? key field = some value) :
    s.Holds value := by
  obtain ⟨hash, hHash, hField⟩ := Option.bind_eq_some_iff.mp h
  exact .field hHash hField

theorem holds_of_values? {fields values : List String}
    (h : s.hashes.values? key fields = some values) : ∀ value ∈ values, s.Holds value := by
  obtain ⟨hash, hHash, rfl⟩ := Option.map_eq_some_iff.mp h
  intro value hValue
  obtain ⟨field, -, hField⟩ := List.mem_filterMap.mp (List.mem_filter.mp hValue).1
  exact .field hHash hField

theorem holds_of_select {l : SkipList} (hList : s.sortedSets[key]? = some l)
    {below within : ScoredMember → Bool} {offset count : Nat} :
    ∀ entry ∈ ScoreMap.select l.scores below within offset count, s.Holds entry.1 :=
  fun _ hEntry => .scored hList (ScoreMap.mem_of_mem_entries (ScoreMap.mem_of_mem_select hEntry))

theorem Sound.holds_of_range (h : s.Sound) {minScore maxScore : Score} {offset count : Nat} :
    ∀ entry ∈ s.sortedSets.range key minScore maxScore offset count, s.Holds entry.1 := by
  rw [SortedSets.range]
  split
  · simp
  · rename_i l hList
    obtain ⟨towers, hWellFormed⟩ := h key l hList
    rw [SkipList.range, hWellFormed.range?_eq, Option.getD_some]
    exact holds_of_select hList

theorem Sound.holds_of_query (h : s.Sound) {minScore maxScore : Score}
    {minMember maxMember : String} {offset count : Nat} :
    ∀ entry ∈ s.sortedSets.query key minScore minMember maxScore maxMember offset count,
      s.Holds entry.1 := by
  rw [SortedSets.query]
  split
  · simp
  · rename_i l hList
    obtain ⟨towers, hWellFormed⟩ := h key l hList
    rw [SkipList.query, hWellFormed.query?_eq, Option.getD_some]
    exact holds_of_select hList

end Store
end Keyspace
