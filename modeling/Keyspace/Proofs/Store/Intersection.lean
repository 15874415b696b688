import Mathlib.Data.List.Sort
import Mathlib.Data.String.Basic
import Keyspace.Proofs.Store.Outcomes
import Keyspace.Proofs.Text.Utf8

/-! # Intersections: the members that sets have in common, whichever of the sets is gone through -/
namespace Keyspace.Sets
open Text
set_option autoImplicit false

variable {sets : Sets} {listing other : Listing} {all others : List (Std.ExtTreeSet String)}
  {keys members : List String} {member : String}

theorem mem_common (hAll : all ≠ []) : member ∈ common listing all ↔ ∀ set ∈ all, member ∈ set := by
  have hPerm := List.mergeSort_perm all fun a b => a.size ≤ b.size
  rw [common]
  split
  · rename_i hSorted
    rw [hSorted] at hPerm
    exact absurd hPerm.nil_eq.symm hAll
  · rename_i smallest rest hSorted
    rw [hSorted] at hPerm
    dsimp only
    calc
      member ∈ ((listing.members smallest).filter fun member =>
          rest.all (·.contains member)).mergeSort (fun a b => a ≤ b) ↔
          member ∈ smallest ∧ ∀ set ∈ rest, member ∈ set := by
        rw [List.mem_mergeSort, List.mem_filter, (listing.perm smallest).mem_iff,
          Std.ExtTreeSet.mem_toList, List.all_eq_true]
        rfl
      _ ↔ ∀ set ∈ smallest :: rest, member ∈ set := by rw [List.forall_mem_cons]
      _ ↔ ∀ set ∈ all, member ∈ set := by simp only [hPerm.mem_iff]

theorem Listing.nodup (listing : Listing) (set : Std.ExtTreeSet String) :
    (listing.members set).Nodup :=
  (listing.perm set).nodup_iff.mpr
    (set.ordered_toList.imp fun hLess => (compare_lt_iff_lt.mp hLess).ne)

/-- The members come up in any order, and the sort puts them in theirs. -/
theorem ascending_common (listing : Listing) (all : List (Std.ExtTreeSet String)) :
    (common listing all).Pairwise (· < ·) := by
  rw [common]
  split
  · exact .nil
  · rename_i smallest rest hSmallest
    dsimp only
    generalize hMembers : (listing.members smallest).filter _ = members
    have hNodup : members.Nodup := hMembers ▸ (Listing.nodup listing smallest).filter _
    have hSorted := @List.pairwise_mergeSort String (fun a b => a ≤ b)
      (fun a b c hab hbc => decide_eq_true (le_trans (of_decide_eq_true hab) (of_decide_eq_true hbc)))
      (fun a b => by simpa using le_total a b) members
    have hDistinct := (List.mergeSort_perm members fun a b => a ≤ b).nodup_iff.mpr hNodup
    exact (hSorted.and hDistinct).imp fun h => lt_of_le_of_ne (of_decide_eq_true h.1) h.2

/-- The members in common depend on nothing but which sets there are: an ascending list is told by
its members, so it is the same from whichever set it was taken, and however they came up. -/
theorem common_congr (h : ∀ set, set ∈ all ↔ set ∈ others) :
    common listing all = common other others := by
  apply (ascending_common listing all).eq_of_mem_iff (ascending_common other others)
  intro member
  cases all with
  | nil =>
    have hOthers : others = [] :=
      List.eq_nil_iff_forall_not_mem.mpr fun set hSet => nomatch (h set).mpr hSet
    rw [hOthers, common, common, List.mergeSort_nil]
  | cons first rest =>
    have hOthers : others ≠ [] := List.ne_nil_of_mem ((h first).mp List.mem_cons_self)
    rw [mem_common (List.cons_ne_nil first rest), mem_common hOthers]
    simp only [h]

/-- In what order members come up makes no difference to an intersection. -/
theorem inter?_listing (sets : Sets) (listing other : Listing) (keys : List String) :
    sets.inter? listing keys = sets.inter? other keys := by
  rw [inter?, inter?]
  exact congrArg (Option.map · _) (funext fun _ => common_congr fun _ => .rfl)

theorem inter?_of_known (h : ∀ key ∈ keys, key ∈ sets) :
    sets.inter? listing keys = some (common listing (keys.map fun key => sets.getD key ∅)) := by
  have hFound : (keys.mapM fun key => sets[key]?) =
      some (keys.map fun key => sets.getD key ∅) := by
    induction keys with
    | nil => rfl
    | cons key rest ih =>
      obtain ⟨hKey, hRest⟩ := List.forall_mem_cons.mp h
      rw [List.mapM_cons, ih hRest, Std.ExtTreeMap.getElem?_eq_some_getD hKey]
      rfl
  rw [inter?, hFound, Option.map_some]

theorem known_of_inter? (h : sets.inter? listing keys = some members) :
    ∀ key ∈ keys, key ∈ sets := by
  intro key hKey
  apply Classical.not_not.mp
  intro hUnknown
  have hNone : sets.inter? listing keys = none :=
    inter?_eq_none_iff.mpr ⟨key, hKey, Std.ExtTreeMap.getElem?_eq_none hUnknown⟩
  cases hNone.symm.trans h

theorem inter?_of_same {more : List String} (h : ∀ key, key ∈ more ↔ key ∈ keys) :
    sets.inter? other more = sets.inter? listing keys := by
  cases hInter : sets.inter? listing keys with
  | none =>
    obtain ⟨key, hKey, hNone⟩ := inter?_eq_none_iff.mp hInter
    exact inter?_eq_none_iff.mpr ⟨key, (h key).mpr hKey, hNone⟩
  | some members =>
    have hKnown := known_of_inter? hInter
    have hMore : ∀ key ∈ more, key ∈ sets := fun key hKey => hKnown key ((h key).mp hKey)
    rw [← hInter, inter?_of_known hKnown, inter?_of_known hMore]
    refine congrArg some (common_congr fun set => ?_)
    simp only [List.mem_map, h]

/-- An intersection has no answer if one of the keys names no set, wherever that key stands. For no
keys it is empty, and otherwise it is the members that the sets of all the keys have, each once and
in the order of their bytes. So the order of the keys makes no difference, nor how often one comes,
nor in what order the members of a set come up. -/
theorem inter?_members (sets : Sets) (listing : Listing) (keys : List String) :
    (sets.inter? listing keys = none ↔ ∃ key ∈ keys, key ∉ sets) ∧
      sets.inter? listing [] = some [] ∧
      (∀ members, keys ≠ [] → sets.inter? listing keys = some members →
        (∀ member, member ∈ members ↔ ∀ key ∈ keys, member ∈ sets.getD key ∅) ∧
          members.Pairwise fun a b => utf8 a < utf8 b) ∧
      ∀ (other : Listing) (more : List String), (∀ key, key ∈ more ↔ key ∈ keys) →
        sets.inter? other more = sets.inter? listing keys := by
  refine ⟨?_, ?_, ?_, fun other more => inter?_of_same⟩
  · simp only [inter?_eq_none_iff, getElem?_eq_none_iff]
  · rw [inter?_of_known (List.forall_mem_nil _), List.map_nil, common, List.mergeSort_nil]
  · intro members hKeys hInter
    cases hInter.symm.trans (inter?_of_known (known_of_inter? hInter))
    constructor
    · intro member
      rw [mem_common (mt List.map_eq_nil_iff.mp hKeys), List.forall_mem_map]
    · exact (ascending_common listing _).imp utf8_lt_utf8_iff.mpr

/-- One set is given twice, and the other two are of the same size; members come up in descending
order. -/
theorem inter?_of_repeated :
    ∃ (sets : Sets) (listing : Listing),
      listing.members (.ofList ["b", "x", "é"]) = ["é", "x", "b"] ∧
      sets.inter? listing ["a", "b", "a", "c"] = some ["x", "é"] ∧
      (∀ member, member ∈ ["x", "é"] ↔
        ∀ key ∈ ["a", "b", "a", "c"], member ∈ sets.getD key ∅) ∧
      (["x", "é"].Pairwise fun a b => utf8 a < utf8 b) ∧
      sets.inter? default ["c", "b", "a"] = some ["x", "é"] := by
  let sets : Sets := ((Std.ExtTreeMap.insert ∅ "a" (.ofList ["é", "x", "a", "z"])).insert "b"
    (.ofList ["b", "x", "é"])).insert "c" (.ofList ["é", "z", "x"])
  let descending : Listing := ⟨fun set => set.toList.reverse, fun _ => List.reverse_perm _⟩
  have hInter : sets.inter? default ["c", "b", "a"] = some ["x", "é"] := by
    have hSizes : (["c", "b", "a"].map fun key => sets.getD key ∅).Pairwise fun a b =>
        decide (a.size ≤ b.size) = true := by decide
    have hMembers : ["x", "é"].Pairwise fun a b : String => decide (a ≤ b) = true := by decide
    rw [inter?_of_known (by decide), common, List.mergeSort_of_pairwise hSizes]
    exact congrArg some (List.mergeSort_of_pairwise hMembers)
  have hKeys : ∀ key, key ∈ ["a", "b", "a", "c"] ↔ key ∈ ["c", "b", "a"] := by
    intro key
    simp only [List.mem_cons, List.not_mem_nil, or_false]
    tauto
  have hSame := (inter?_members sets default ["c", "b", "a"]).2.2.2 descending _ hKeys
  obtain ⟨-, -, hMembers, -⟩ := inter?_members sets descending ["a", "b", "a", "c"]
  obtain ⟨hMember, hOrder⟩ := hMembers _ (List.cons_ne_nil _ _) (hSame.trans hInter)
  exact ⟨sets, descending, rfl, hSame.trans hInter, hMember, hOrder, hInter⟩

end Keyspace.Sets
