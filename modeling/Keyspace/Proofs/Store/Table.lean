import Mathlib.Data.List.Perm.Basic
import Std.Data.ExtTreeMap

/-! # Tables: what is found under a key, and what is left without it -/
namespace Keyspace
set_option autoImplicit false

abbrev Table (β : Type) := Std.ExtTreeMap String β

namespace Table

variable {β : Type} {key other : String} {m n : Table β} {value : β}

theorem getElem?_insert_of_ne (h : key ≠ other) (value : β) :
    (m.insert key value)[other]? = m[other]? := by
  rw [Std.ExtTreeMap.getElem?_insert, if_neg (mt Std.compare_eq_iff_eq.mp h)]

theorem getElem?_insert (m : Table β) (key : String) (value : β) (other : String) :
    (m.insert key value)[other]? = if other = key then some value else m[other]? := by
  split
  · rename_i hKey
    rw [hKey, Std.ExtTreeMap.getElem?_insert_self]
  · rename_i hKey
    exact getElem?_insert_of_ne (Ne.symm hKey) value

theorem insert_of_getElem? (h : m[key]? = some value) : m.insert key value = m := by
  apply Std.ExtTreeMap.ext_getElem?
  intro other
  rw [Std.ExtTreeMap.getElem?_insert]
  split
  · rename_i hEq
    rw [← Std.compare_eq_iff_eq.mp hEq, h]
  · rfl

theorem insertIfNew_of_mem (h : key ∈ m) (value : β) : m.insertIfNew key value = m := by
  apply Std.ExtTreeMap.ext_getElem?
  intro other
  rw [Std.ExtTreeMap.getElem?_insertIfNew, if_neg fun hNew => hNew.2 h]

theorem getD_congr (h : m[key]? = n[key]?) (fallback : β) :
    m.getD key fallback = n.getD key fallback := by
  rw [Std.ExtTreeMap.getD_eq_getD_getElem?, Std.ExtTreeMap.getD_eq_getD_getElem?, h]

theorem getD_of_getElem? (h : m[key]? = some value) (fallback : β) :
    m.getD key fallback = value := by
  rw [Std.ExtTreeMap.getD_eq_getD_getElem?, h, Option.getD_some]

theorem getD_insertIfNew (m : Table β) (key : String) (value : β) :
    (m.insertIfNew key value).getD key value = m.getD key value := by
  rw [Std.ExtTreeMap.getD_insertIfNew]
  split
  · rename_i hNew
    exact (Std.ExtTreeMap.getD_eq_fallback hNew.2).symm
  · rfl

theorem mem_insert : other ∈ m.insert key value ↔ key = other ∨ other ∈ m := by
  rw [Std.ExtTreeMap.mem_insert, Std.compare_eq_iff_eq]

theorem erase_insert (m : Table β) (key : String) (value : β) :
    (m.insert key value).erase key = m.erase key := by
  apply Std.ExtTreeMap.ext_getElem?
  intro other
  rw [Std.ExtTreeMap.getElem?_erase, Std.ExtTreeMap.getElem?_erase]
  split
  · rfl
  · rename_i hOther
    rw [Std.ExtTreeMap.getElem?_insert, if_neg hOther]

theorem erase_of_getElem?_none (h : m[key]? = none) : m.erase key = m := by
  apply Std.ExtTreeMap.ext_getElem?
  intro other
  rw [Std.ExtTreeMap.getElem?_erase]
  split
  · rename_i hEq
    rw [← Std.compare_eq_iff_eq.mp hEq, h]
  · rfl

theorem nodup_toList (m : Table β) : m.toList.Nodup := by
  apply m.distinct_keys_toList.imp
  intro a b hCompare hEq
  apply hCompare
  rw [hEq, Std.compare_self]

/-- The entry of a key can be told before all the others. -/
theorem toList_perm (h : m[key]? = some value) :
    m.toList.Perm ((key, value) :: (m.erase key).toList) := by
  have hOthers : (key, value) ∉ (m.erase key).toList := by
    rw [Std.ExtTreeMap.mem_toList_iff_getElem?_eq_some, Std.ExtTreeMap.getElem?_erase_self]
    exact Option.some_ne_none value ∘ Eq.symm
  apply (List.perm_ext_iff_of_nodup (nodup_toList m)
    (List.nodup_cons.mpr ⟨hOthers, nodup_toList _⟩)).mpr
  rintro ⟨other, held⟩
  rw [List.mem_cons, Std.ExtTreeMap.mem_toList_iff_getElem?_eq_some,
    Std.ExtTreeMap.mem_toList_iff_getElem?_eq_some, Std.ExtTreeMap.getElem?_erase]
  by_cases hKey : key = other
  · subst hKey
    simp [h, eq_comm]
  · simp [hKey, Ne.symm hKey]

end Table
end Keyspace
