import Keyspace.Store.Basic
import Keyspace.Proofs.Store.Table
import Keyspace.Proofs.Text.Numeral

/-! # Outcomes: the ways that an operation can go, and what it leaves when it gives nothing -/
namespace Keyspace
set_option autoImplicit false

theorem Counter.add?_initial (amount : Int64) : add? initial amount = some amount := by
  have hZero : Text.readInt64 initial = some 0 := Text.readInt64_intText 0
  have hSum : (0 : Int64).toInt + amount.toInt = amount.toInt := Int.zero_add _
  rw [add?, hZero, Option.bind_some, hSum, Text.int64?_toInt]

/-- A key that is unknown is never refused, so the initial text under it is always counted on. -/
theorem Strings.add_of_none {strings : Strings} {key : String} {amount : Int64}
    (h : (strings.add key amount).1 = none) : (strings.add key amount).2 = strings := by
  by_cases hKey : key ∈ strings
  · rw [Strings.add, Table.insertIfNew_of_mem hKey] at h ⊢
    split at h
    · rfl
    · cases h
  · have hCount : (strings.insertIfNew key Counter.initial).getD key Counter.initial =
        Counter.initial := by
      rw [Table.getD_insertIfNew, Std.ExtTreeMap.getD_eq_fallback hKey]
    simp only [Strings.add, hCount, Counter.add?_initial] at h
    cases h

namespace Lists

variable (lists : Lists) (d : Direction) (key : String)

/-- Making a key known adds an empty list, or nothing. -/
theorem insert_getD :
    lists.insert key (lists.getD key []) = lists ∨
      lists[key]? = none ∧ lists.insert key (lists.getD key []) = lists.insert key [] := by
  rw [Std.ExtTreeMap.getD_eq_getD_getElem?]
  cases hFound : lists[key]? with
  | none => exact .inr ⟨rfl, rfl⟩
  | some list => exact .inl (Table.insert_of_getElem? hFound)

theorem pop_cases :
    lists.pop d key = (none, lists.insert key (lists.getD key [])) ∨
      ∃ value rest, d.pop (lists.getD key []) = some (value, rest) ∧
        lists.pop d key = (some value, lists.insert key rest) := by
  simp only [pop]
  split
  · exact .inl rfl
  · rename_i value rest hPop
    exact .inr ⟨value, rest, hPop, rfl⟩

/-- No value moves, and the source is known; or one is taken out there and pushed to the
destination. A value that goes back after it was taken out has not moved. -/
theorem move_cases (source destination fromEnd toEnd : String) :
    lists.move source destination fromEnd toEnd =
        (none, lists.insert source (lists.getD source [])) ∨
      ∃ popEnd pushEnd value rest, Direction.read fromEnd = .ok popEnd ∧
        Direction.read toEnd = .ok pushEnd ∧
        popEnd.pop (lists.getD source []) = some (value, rest) ∧
        lists.move source destination fromEnd toEnd =
          (some value, (push (lists.insert source rest) pushEnd destination value).2) := by
  simp only [move]
  split
  · exact .inl rfl
  · rename_i popEnd hFrom
    split
    · exact .inl rfl
    · rename_i value rest hPop
      split
      · rw [Direction.push_pop hPop]
        exact .inl rfl
      · rename_i pushEnd hTo
        exact .inr ⟨popEnd, pushEnd, value, rest, hFrom, hTo, hPop, rfl⟩

variable {lists d key}

theorem pop_of_none (h : (lists.pop d key).1 = none) :
    (lists.pop d key).2 = lists.insert key (lists.getD key []) := by
  obtain hNone | ⟨value, rest, -, hSome⟩ := lists.pop_cases d key
  · rw [hNone]
  · rw [hSome] at h
    cases h

theorem move_of_none {source destination fromEnd toEnd : String}
    (h : (lists.move source destination fromEnd toEnd).1 = none) :
    (lists.move source destination fromEnd toEnd).2 =
      lists.insert source (lists.getD source []) := by
  obtain hNone | ⟨popEnd, pushEnd, value, rest, -, -, -, hSome⟩ :=
    lists.move_cases source destination fromEnd toEnd
  · rw [hNone]
  · rw [hSome] at h
    cases h

theorem trim_eq_false_iff {start stop : Int64} :
    (lists.trim key start stop).1 = false ↔ lists[key]? = none := by
  rw [trim]
  cases lists[key]? with
  | none => simp
  | some list =>
    dsimp only
    split <;> simp

theorem trim_of_unknown {start stop : Int64} (h : (lists.trim key start stop).1 = false) :
    (lists.trim key start stop).2 = lists := by
  rw [trim, trim_eq_false_iff.mp h]

end Lists

namespace Sets

variable {sets : Sets} {key member : String}

theorem remove_eq_none_iff : (sets.remove key member).1 = none ↔ sets[key]? = none := by
  rw [remove]
  cases sets[key]? <;> simp

theorem remove_of_none (h : (sets.remove key member).1 = none) :
    (sets.remove key member).2 = sets := by
  rw [remove, remove_eq_none_iff.mp h]

theorem inter?_eq_none_iff {listing : Listing} {keys : List String} :
    sets.inter? listing keys = none ↔ ∃ key ∈ keys, sets[key]? = none := by
  rw [inter?, Option.map_eq_none_iff]
  induction keys with
  | nil => simp
  | cons key keys ih =>
    rw [List.exists_mem_cons_iff, List.mapM_cons, ← ih]
    cases sets[key]? <;> cases keys.mapM fun key => sets[key]? <;> simp

end Sets

theorem Hashes.add_of_none {hashes : Hashes} {key field : String} {amount : Int64}
    (h : (hashes.add key field amount).1 = none) : (hashes.add key field amount).2 = hashes := by
  rw [Hashes.add] at h ⊢
  split at h
  · rfl
  · split at h
    · rfl
    · cases h

end Keyspace
