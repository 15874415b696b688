import Mathlib.Algebra.Ring.Int.Defs
import Mathlib.Tactic.SplitIfs
import Keyspace.Proofs.Store.Outcomes

/-! # Ranges: the positions of a list that two indices of 64 bits select, and trimming to them -/
namespace Keyspace.Lists
set_option autoImplicit false

variable {lists : Lists} {key : String} {list : List String} {length first last : Nat}
  {start stop index : Int64}

/-- The position that an index means in a list of this length. One below zero counts from the end,
but not beyond the front. -/
def position (length : Nat) (index : Int64) : Int :=
  if 0 ≤ index.toInt then index.toInt else max (length + index.toInt) 0

/-- The values at the positions from one to another, both included. -/
def between (list : List String) (first last : Int) : List String :=
  (list.zipIdx.filter fun entry => first ≤ entry.2 ∧ entry.2 ≤ last).map (·.1)

/-- The bounds of a range are made of these, and none of them overflows. -/
structure Exact (length : Nat) (start stop : Int64) : Prop where
  size : (Int64.ofNat length).toInt = length
  start : start < 0 → (Int64.ofNat length + start).toInt = length + start.toInt
  stop : stop < 0 → (Int64.ofNat length + stop).toInt = length + stop.toInt
  last : (Int64.ofNat length - 1).toInt = length - 1

theorem bmod_of_int64 {i : Int} (hLow : -2 ^ 63 ≤ i) (hHigh : i < 2 ^ 63) : i.bmod (2 ^ 64) = i :=
  Int.bmod_eq_of_le (by omega) (by omega)

theorem toInt_add_of_neg (h : length < 2 ^ 63) (hIndex : index < 0) :
    (Int64.ofNat length + index).toInt = length + index.toInt := by
  have hLow := index.le_toInt
  rw [Int64.lt_iff_toInt_lt, Int64.toInt_zero] at hIndex
  rw [Int64.toInt_add, Int64.toInt_ofNat_of_lt h]
  exact bmod_of_int64 (by omega) (by omega)

theorem toInt_sub_one (h : length < 2 ^ 63) : (Int64.ofNat length - 1).toInt = length - 1 := by
  rw [Int64.toInt_sub, Int64.toInt_ofNat_of_lt h, Int64.toInt_one]
  exact bmod_of_int64 (by omega) (by omega)

theorem exact_of_lt (h : length < 2 ^ 63) (start stop : Int64) : Exact length start stop where
  size := Int64.toInt_ofNat_of_lt h
  start := toInt_add_of_neg h
  stop := toInt_add_of_neg h
  last := toInt_sub_one h

theorem toInt_min (a b : Int64) : (min a b).toInt = min a.toInt b.toInt := by
  change (if a ≤ b then a else b).toInt = _
  split <;> rw [Int64.le_iff_toInt_le] at * <;> omega

theorem toInt_max (a b : Int64) : (max a b).toInt = max a.toInt b.toInt := by
  change (if a ≤ b then b else a).toInt = _
  split <;> rw [Int64.le_iff_toInt_le] at * <;> omega

theorem toInt_fromFront (h : length < 2 ^ 63) (index : Int64) :
    (fromFront (Int64.ofNat length) index).toInt = position length index := by
  rw [fromFront, position]
  split
  · rename_i hIndex
    rw [toInt_max, toInt_add_of_neg h hIndex, Int64.toInt_zero]
    rw [Int64.lt_iff_toInt_lt, Int64.toInt_zero] at hIndex
    exact (if_neg (Int.not_le.mpr hIndex)).symm
  · rename_i hIndex
    rw [Int64.lt_iff_toInt_lt, Int64.toInt_zero] at hIndex
    exact (if_pos (Int.not_lt.mp hIndex)).symm

theorem position_nonneg (length : Nat) (index : Int64) : 0 ≤ position length index := by
  rw [position]
  split <;> omega

/-- A range has bounds where its first position is one of the list and not after its last one. -/
theorem bounds?_eq (h : length < 2 ^ 63) (start stop : Int64) :
    bounds? start stop length =
      if position length start ≤ min (position length stop) (length - 1) then
        some ((position length start).toNat, (min (position length stop) (length - 1)).toNat)
      else none := by
  have hFirst : (min (fromFront (Int64.ofNat length) start) (Int64.ofNat length)).toInt =
      min (position length start) length := by
    rw [toInt_min, toInt_fromFront h, Int64.toInt_ofNat_of_lt h]
  have hLast : (min (fromFront (Int64.ofNat length) stop) (Int64.ofNat length - 1)).toInt =
      min (position length stop) (length - 1) := by
    rw [toInt_min, toInt_fromFront h, toInt_sub_one h]
  simp only [bounds?, Int64.lt_iff_toInt_lt, Int64.le_iff_toInt_le, ← Int64.toNat_toInt, hFirst,
    hLast, Int64.toInt_ofNat_of_lt h]
  split_ifs with hNone hSome hSome
  · omega
  · rfl
  · rw [Int.min_eq_left (by omega)]
  · omega

theorem bounds?_eq_some_iff (h : length < 2 ^ 63) :
    bounds? start stop length = some (first, last) ↔
      (first : Int) = position length start ∧
        (last : Int) = min (position length stop) (length - 1) ∧ first ≤ last := by
  have hStart := position_nonneg length start
  rw [bounds?_eq h]
  split_ifs with hSome
  · rw [Option.some.injEq, Prod.mk.injEq]
    omega
  · simp only [false_iff]
    omega

/-- The values between the ends of the middle part are that part. -/
theorem between_append (before middle after : List String) :
    between (before ++ middle ++ after) before.length (before.length + middle.length - 1) =
      middle := by
  have hBefore : ∀ entry ∈ before.zipIdx,
      ¬ ((before.length : Int) ≤ entry.2 ∧ (entry.2 : Int) ≤ before.length + middle.length - 1) := by
    intro entry hEntry
    have hPlace := List.snd_lt_of_mem_zipIdx hEntry
    omega
  have hMiddle : ∀ entry ∈ middle.zipIdx before.length,
      (before.length : Int) ≤ entry.2 ∧ (entry.2 : Int) ≤ before.length + middle.length - 1 := by
    intro entry hEntry
    have hFrom := List.le_snd_of_mem_zipIdx hEntry
    have hPlace := List.snd_lt_add_of_mem_zipIdx hEntry
    omega
  have hAfter : ∀ entry ∈ after.zipIdx (before ++ middle).length,
      ¬ ((before.length : Int) ≤ entry.2 ∧ (entry.2 : Int) ≤ before.length + middle.length - 1) := by
    intro entry hEntry
    have hFrom := List.le_snd_of_mem_zipIdx hEntry
    rw [List.length_append] at hFrom
    omega
  rw [between, List.zipIdx_append, List.zipIdx_append, List.filter_append, List.filter_append,
    List.filter_eq_nil_iff.mpr (by simpa using hBefore),
    List.filter_eq_self.mpr (by simpa using hMiddle),
    List.filter_eq_nil_iff.mpr (by simpa using hAfter)]
  simp

theorem between_of_lt {first last : Int} (list : List String) (h : last < first) :
    between list first last = [] := by
  have hNone : ∀ entry ∈ list.zipIdx, ¬ (first ≤ entry.2 ∧ (entry.2 : Int) ≤ last) := by
    intro entry _
    omega
  rw [between, List.filter_eq_nil_iff.mpr (by simpa using hNone), List.map_nil]

theorem between_eq (hFirst : first ≤ last) (hLast : last < list.length) :
    between list first last = (list.drop first).take (last - first + 1) := by
  have hBefore : (list.take first).length = first := List.length_take_of_le (by omega)
  have hMiddle : ((list.drop first).take (last - first + 1)).length = last - first + 1 := by
    rw [List.length_take_of_le]
    rw [List.length_drop]
    omega
  have hEnd : (last : Int) = first + (last - first + 1 : Nat) - 1 := by omega
  have hSplit := between_append (list.take first) ((list.drop first).take (last - first + 1))
    ((list.drop first).drop (last - first + 1))
  rw [List.append_assoc, List.take_append_drop, List.take_append_drop, hBefore, hMiddle] at hSplit
  rwa [hEnd]

theorem range?_eq (h : lists[key]? = some list) (hLength : list.length < 2 ^ 63)
    (start stop : Int64) :
    lists.range? key start stop = some (between list (position list.length start)
      (min (position list.length stop) (list.length - 1))) := by
  rw [range?, h, Option.map_some]
  cases hBounds : bounds? start stop list.length with
  | none =>
    rw [bounds?_eq hLength] at hBounds
    split_ifs at hBounds with hSome
    rw [between_of_lt list (Int.not_le.mp hSome)]
  | some bounds =>
    obtain ⟨hFirst, hLast, hLe⟩ := (bounds?_eq_some_iff hLength).mp hBounds
    rw [← hFirst, ← hLast, between_eq hLe (by omega)]

/-- A range gives the values at the positions from that of its first index to that of its second
one, or to the last of the list, in their order. Nothing overflows on the way to its bounds, and
where it has bounds they are positions of the list, the second not before the first: so what is
sliced out, cut off at the end or then at the front is there. -/
theorem range?_positions (h : lists[key]? = some list) (hLength : list.length < 2 ^ 63)
    (start stop : Int64) :
    lists.range? key start stop = some (between list (position list.length start)
        (min (position list.length stop) (list.length - 1))) ∧
      Exact list.length start stop ∧
      ∀ first last, bounds? start stop list.length = some (first, last) →
        (first : Int) = position list.length start ∧
          (last : Int) = min (position list.length stop) (list.length - 1) ∧
          first ≤ last ∧ last < list.length ∧ first ≤ (list.take (last + 1)).length := by
  refine ⟨range?_eq h hLength start stop, exact_of_lt hLength start stop, ?_⟩
  intro first last hBounds
  obtain ⟨hFirst, hLast, hLe⟩ := (bounds?_eq_some_iff hLength).mp hBounds
  refine ⟨hFirst, hLast, hLe, by omega, ?_⟩
  rw [List.length_take_of_le (by omega)]
  omega

/-- The least index there is comes before the front, and the greatest after the end. -/
theorem range?_extremes :
    ∃ lists : Lists, lists["k"]? = some ["a", "b", "c"] ∧
      lists.range? "k" Int64.minValue Int64.maxValue = some ["a", "b", "c"] ∧
      lists.range? "k" (-2) Int64.maxValue = some ["b", "c"] := by
  have hList : ((∅ : Lists).insert "k" ["a", "b", "c"])["k"]? = some ["a", "b", "c"] :=
    Std.ExtTreeMap.getElem?_insert_self
  have hLength : ["a", "b", "c"].length < 2 ^ 63 := by decide
  exact ⟨_, hList, (range?_positions hList hLength _ _).1.trans (by decide),
    (range?_positions hList hLength _ _).1.trans (by decide)⟩

/-- A number with another one below it does not wrap when one is taken off. -/
theorem toInt_sub_one_of_lt {a b : Int64} (h : a < b) : (b - 1).toInt = b.toInt - 1 := by
  have hLow := a.le_toInt
  have hHigh := b.toInt_lt
  rw [Int64.lt_iff_toInt_lt] at h
  rw [Int64.toInt_sub, Int64.toInt_one]
  exact bmod_of_int64 (by omega) (by omega)

/-- Bounds are in order, and the values from one to the other are fewer than 64 bits count, however
long the list is. -/
theorem le_of_bounds? (h : bounds? start stop length = some (first, last)) :
    first ≤ last ∧ last + 1 < 2 ^ 63 := by
  simp only [bounds?] at h
  split at h
  · cases h
  · rename_i hSome
    obtain ⟨hOrder, hFirst⟩ := not_or.mp hSome
    cases h
    have hLast := toInt_sub_one_of_lt (Int64.not_le.mp hFirst)
    have hSize := (Int64.ofNat length).toInt_lt
    simp only [Int64.lt_iff_toInt_lt, toInt_min] at hOrder
    simp only [← Int64.toNat_toInt, toInt_min]
    omega

theorem trim_of_known (h : lists[key]? = some list) (start stop : Int64) :
    ∃ kept : List String, kept.length < 2 ^ 63 ∧ lists.range? key start stop = some kept ∧
      lists.trim key start stop = (true, lists.insert key kept) := by
  rw [range?, trim, h]
  cases hBounds : bounds? start stop list.length with
  | none => exact ⟨[], by decide, by simp [hBounds], by simp [hBounds]⟩
  | some bounds =>
    obtain ⟨first, last⟩ := bounds
    obtain ⟨hLe, hLast⟩ := le_of_bounds? hBounds
    refine ⟨(list.take (last + 1)).drop first, ?_, ?_, ?_⟩
    · rw [List.length_drop, List.length_take]
      omega
    · -- The end was cut off by its place in the list, and is now counted from the first value kept.
      have hCount : last - first + 1 = last + 1 - first := by omega
      simp only [Option.map_some, hBounds, List.drop_take, hCount]
    · simp only [hBounds]

theorem range?_whole (h : lists[key]? = some list) (hLength : list.length < 2 ^ 63) :
    lists.range? key 0 (-1) = some list := by
  have hWhole := between_append [] list []
  have hFirst : position list.length 0 = ([] : List String).length := rfl
  have hLast : min (position list.length (-1)) (list.length - 1) =
      ([] : List String).length + list.length - 1 := by
    have hStop : position list.length (-1) = max ((list.length : Int) + -1) 0 := rfl
    rw [hStop]
    simp only [List.length_nil]
    omega
  rw [List.append_nil, List.nil_append] at hWhole
  rw [range?_eq h hLength, hFirst, hLast, hWhole]

theorem trim_whole (h : lists[key]? = some list) (hLength : list.length < 2 ^ 63) :
    lists.trim key 0 (-1) = (true, lists) := by
  obtain ⟨kept, -, hRange, hTrim⟩ := trim_of_known h 0 (-1)
  cases (range?_whole h hLength).symm.trans hRange
  rw [hTrim, Table.insert_of_getElem? h]

/-- Trimming answers whether the key is known, leaves under it just the values that a range of the
same indices gives, and leaves every other list as it is; then trimming to the whole list changes
nothing more. This is so of a list of any length, also of one that 64 bits do not count. -/
theorem trim_leaves_range (lists : Lists) (key : String) (start stop : Int64) :
    (lists.trim key start stop).1 = (lists.range? key start stop).isSome ∧
      (lists.trim key start stop).2.range? key 0 (-1) = lists.range? key start stop ∧
      (∀ other, (lists.trim key start stop).2[other]? =
        if other = key then lists.range? key start stop else lists[other]?) ∧
      (lists.trim key start stop).2.trim key 0 (-1) = lists.trim key start stop := by
  cases hFound : lists[key]? with
  | none =>
    have hRange : ∀ start stop, lists.range? key start stop = none := by
      intro start stop
      rw [range?, hFound, Option.map_none]
    have hTrim : ∀ start stop, lists.trim key start stop = (false, lists) := by
      intro start stop
      have hUnknown : (lists.trim key start stop).1 = false := trim_eq_false_iff.mpr hFound
      exact Prod.ext hUnknown (trim_of_unknown hUnknown)
    rw [hTrim, hRange]
    refine ⟨rfl, hRange 0 (-1), ?_, hTrim 0 (-1)⟩
    intro other
    split
    · rename_i hKey
      rw [hKey, hFound]
    · rfl
  | some list =>
    obtain ⟨kept, hLength, hRange, hTrim⟩ := trim_of_known hFound start stop
    have hKept : (lists.insert key kept)[key]? = some kept :=
      Std.ExtTreeMap.getElem?_insert_self
    rw [hTrim, hRange]
    exact ⟨rfl, range?_whole hKept hLength, Table.getElem?_insert lists key kept,
      trim_whole hKept hLength⟩

end Keyspace.Lists
