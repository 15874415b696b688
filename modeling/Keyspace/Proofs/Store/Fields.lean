import Mathlib.Data.Finset.Card
import Keyspace.Proofs.Store.Outcomes

/-! # Fields: of pairs put into a hash the last one of a field stays, and each new field counts once -/
namespace Keyspace
set_option autoImplicit false

namespace Hash

/-- The fields of the pairs that a hash does not hold. -/
def newFields (hash : Hash) (pairs : List (String × String)) : Finset String :=
  (pairs.map Prod.fst).toFinset.filter (· ∉ hash)

variable {hash : Hash} {field other value : String} {pairs : List (String × String)}

theorem mem_newFields :
    other ∈ hash.newFields pairs ↔ other ∈ pairs.map Prod.fst ∧ other ∉ hash := by
  rw [newFields, Finset.mem_filter, List.mem_toFinset]

theorem not_mem_newFields_insert : field ∉ newFields (hash.insert field value) pairs := by
  rw [mem_newFields]
  exact fun hNew => hNew.2 (Table.mem_insert.mpr (.inl rfl))

theorem newFields_cons_of_mem (h : field ∈ hash) :
    hash.newFields ((field, value) :: pairs) = newFields (hash.insert field value) pairs := by
  ext other
  rw [mem_newFields, mem_newFields, List.map_cons, List.mem_cons, Table.mem_insert]
  constructor
  · rintro ⟨rfl | hPairs, hNew⟩
    · exact absurd h hNew
    · refine ⟨hPairs, ?_⟩
      rintro (rfl | hOld)
      · exact hNew h
      · exact hNew hOld
  · rintro ⟨hPairs, hNew⟩
    exact ⟨.inr hPairs, mt .inr hNew⟩

theorem newFields_cons_of_not_mem (h : field ∉ hash) :
    hash.newFields ((field, value) :: pairs) =
      insert field (newFields (hash.insert field value) pairs) := by
  ext other
  rw [Finset.mem_insert, mem_newFields, mem_newFields, List.map_cons, List.mem_cons,
    Table.mem_insert]
  rcases eq_or_ne field other with rfl | hOther
  · simp [h]
  · simp [hOther, hOther.symm]

/-- Of the pairs of a field only the first can be new: then the hash holds the field. -/
theorem putAll_fst (hash : Hash) (pairs : List (String × String)) :
    (hash.putAll pairs).1 = (hash.newFields pairs).card := by
  induction pairs generalizing hash with
  | nil => rfl
  | cons pair rest ih =>
    obtain ⟨field, value⟩ := pair
    have hRest := ih (hash.insert field value)
    cases hField : hash.contains field with
    | true =>
      simp only [putAll, hField, hRest, newFields_cons_of_mem hField]
      exact Nat.zero_add _
    | false =>
      have hNew : field ∉ hash := Bool.eq_false_iff.mp hField
      rw [newFields_cons_of_not_mem hNew, Finset.card_insert_of_notMem not_mem_newFields_insert]
      simp only [putAll, hField, hRest]
      exact Nat.add_comm _ _

theorem getElem?_putAll_of_not_mem (h : field ∉ pairs.map Prod.fst) :
    (hash.putAll pairs).2[field]? = hash[field]? := by
  induction pairs generalizing hash with
  | nil => rfl
  | cons pair rest ih =>
    rw [List.map_cons, List.mem_cons, not_or] at h
    exact (ih h.2).trans (Table.getElem?_insert_of_ne (Ne.symm h.1) _)

theorem getElem?_putAll_of_last {before after : List (String × String)}
    (h : field ∉ after.map Prod.fst) :
    (hash.putAll (before ++ (field, value) :: after)).2[field]? = some value := by
  induction before generalizing hash with
  | nil => exact (getElem?_putAll_of_not_mem h).trans Std.ExtTreeMap.getElem?_insert_self
  | cons pair rest ih => exact ih

end Hash

namespace Hashes

variable {hashes : Hashes} {key field value : String}

theorem value?_eq (hashes : Hashes) (key field : String) :
    hashes.value? key field = (hashes.getD key ∅)[field]? := by
  rw [value?, Std.ExtTreeMap.getD_eq_getD_getElem?]
  cases hashes[key]? with
  | none => exact Std.ExtTreeMap.getElem?_empty.symm
  | some hash => rfl

theorem value?_put (hashes : Hashes) (key : String) (pairs : List (String × String))
    (field : String) : (hashes.put key pairs).2.value? key field =
      (Hash.putAll (hashes.getD key ∅) pairs).2[field]? := by
  rw [value?, put, Std.ExtTreeMap.getElem?_insert_self, Option.bind_some]

theorem values?_eq (hashes : Hashes) (key : String) (fields : List String) :
    hashes.values? key fields =
      if key ∈ hashes then
        some (fields.filterMap fun field => (hashes.value? key field).filter (· ≠ ""))
      else none := by
  split
  · rename_i hKnown
    obtain ⟨hash, hHash⟩ := Option.isSome_iff_exists.mp
      (Std.ExtTreeMap.isSome_getElem?_iff_mem.mpr hKnown)
    simp only [values?, value?, hHash, Option.map_some, Option.bind_some, List.filter_filterMap]
  · rename_i hUnknown
    rw [values?, Std.ExtTreeMap.getElem?_eq_none hUnknown, Option.map_none]

/-- Putting pairs into a hash answers how many fields among them it did not hold, each told once.
Then a field of the pairs has the value of its last pair, and every other one, and every other hash,
is as it was. In any state the values of some fields are those that each of them has by itself, in
the order of the fields, without the missing and the empty ones. -/
theorem put_outcome (hashes : Hashes) (key : String) (pairs : List (String × String)) :
    (hashes.put key pairs).1 =
        ((pairs.map Prod.fst).toFinset.filter fun field => hashes.value? key field = none).card ∧
      (∀ before field value after, pairs = before ++ (field, value) :: after →
        field ∉ after.map Prod.fst → (hashes.put key pairs).2.value? key field = some value) ∧
      (∀ field, field ∉ pairs.map Prod.fst →
        (hashes.put key pairs).2.value? key field = hashes.value? key field) ∧
      (∀ other, other ≠ key → (hashes.put key pairs).2[other]? = hashes[other]?) ∧
      key ∈ (hashes.put key pairs).2 ∧
      ∀ (state : Hashes) (fields : List String), state.values? key fields =
        if key ∈ state then
          some (fields.filterMap fun field => (state.value? key field).filter (· ≠ ""))
        else none := by
  refine ⟨?_, ?_, ?_, ?_, Std.ExtTreeMap.mem_insert_self, fun state => state.values?_eq key⟩
  · have hNew : ((pairs.map Prod.fst).toFinset.filter fun field =>
        hashes.value? key field = none) = (hashes.getD key ∅).newFields pairs := by
      apply Finset.filter_congr
      intro field _
      rw [value?_eq, getElem?_eq_none_iff]
    rw [hNew, ← Hash.putAll_fst]
    rfl
  · rintro before field value after rfl hLast
    rw [value?_put, Hash.getElem?_putAll_of_last hLast]
  · intro field hField
    rw [value?_put, value?_eq, Hash.getElem?_putAll_of_not_mem hField]
  · intro other hOther
    exact Table.getElem?_insert_of_ne (Ne.symm hOther) _

/-- Two fields come twice, and one of them is new. -/
theorem put_of_repeated :
    let hashes : Hashes :=
      Std.ExtTreeMap.insert ∅ "k" ((Std.ExtTreeMap.insert ∅ "f" "1").insert "g" "")
    let pairs := [("f", "2"), ("h", "3"), ("f", "4"), ("h", "5")]
    let (added, next) := hashes.put "k" pairs
    added = 1 ∧ next.value? "k" "f" = some "4" ∧ next.value? "k" "g" = some "" ∧
      next["l"]? = none ∧ next.values? "k" ["h", "g", "f", "i", "h"] = some ["5", "4", "5"] := by
  intro hashes pairs
  obtain ⟨hCount, hLast, hOther, hKeys, hKnown, hValues⟩ := put_outcome hashes "k" pairs
  refine ⟨hCount.trans (by decide),
    hLast [("f", "2"), ("h", "3")] "f" "4" [("h", "5")] rfl (by decide),
    (hOther "g" (by decide)).trans (by decide), (hKeys "l" (by decide)).trans (by decide), ?_⟩
  exact (hValues _ _).trans ((if_pos hKnown).trans (by decide))

end Hashes
end Keyspace
