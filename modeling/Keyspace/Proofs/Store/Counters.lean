import Mathlib.Algebra.BigOperators.Group.List.Basic
import Mathlib.Algebra.Ring.Int.Defs
import Keyspace.Proofs.Store.Outcomes

/-! # Counters: what a text counts for, and what adding to it one time after the other comes to -/
namespace Keyspace
open Text
set_option autoImplicit false

namespace Counter

def InRange (i : Int) : Prop := -2 ^ 63 ≤ i ∧ i ≤ 2 ^ 63 - 1

/-- The number that a cell stands for: zero if there is nothing in it, and otherwise the one that
its text spells, if that is in range. -/
inductive Stands : Option String → Int → Prop
  | missing : Stands none 0
  | spelled {text : String} {n : Int} (hText : Spells text.toList n) (hRange : InRange n) :
      Stands (some text) n

/-- What adding an amount to a cell answers, and what it leaves there: the sum, if the cell stands
for a number and the sum is in range, and otherwise nothing and what was there. -/
structure Counts (stored : Option String) (amount : Int64) (result : Option Int64)
    (left : Option String) : Prop where
  none_iff : result = none ↔
    (¬ ∃ n, Stands stored n) ∨ ∃ n, Stands stored n ∧ ¬ InRange (n + amount.toInt)
  kept : result = none → left = stored
  sum : ∀ total, result = some total →
    ∃ n, Stands stored n ∧ total.toInt = n + amount.toInt ∧ left = some (toString total.toInt)
  missing : stored = none → result = some amount

variable {stored left : Option String} {amount total : Int64} {result : Option Int64} {n m : Int}

theorem inRange_toInt (k : Int64) : InRange k.toInt :=
  ⟨k.le_toInt, Int.le_sub_one_of_lt k.toInt_lt⟩

theorem exists_toInt (h : InRange n) : ∃ k : Int64, k.toInt = n :=
  ⟨Int64.ofInt n, Int64.toInt_ofInt_of_le h.1 (Int.lt_of_le_sub_one h.2)⟩

theorem text_eq (k : Int64) : text k = toString k.toInt := by
  rw [text]
  cases k.toInt <;> rfl

theorem stands_iff : Stands stored n ↔
    ∃ k : Int64, readInt64 (stored.getD initial) = some k ∧ k.toInt = n := by
  constructor
  · intro h
    cases h with
    | missing => exact ⟨0, readInt64_intText 0, rfl⟩
    | spelled hText hRange =>
      obtain ⟨k, rfl⟩ := exists_toInt hRange
      exact ⟨k, readInt64_eq_some_iff.mpr hText, rfl⟩
  · rintro ⟨k, hRead, rfl⟩
    cases stored with
    | none =>
      cases (readInt64_intText 0).symm.trans hRead
      exact .missing
    | some text => exact .spelled (readInt64_eq_some_iff.mp hRead) (inRange_toInt k)

theorem Stands.unique (h : Stands stored n) (hOther : Stands stored m) : n = m := by
  obtain ⟨k, hRead, rfl⟩ := stands_iff.mp h
  obtain ⟨l, hSame, rfl⟩ := stands_iff.mp hOther
  cases hRead.symm.trans hSame
  rfl

theorem add?_eq_some_iff : add? (stored.getD initial) amount = some total ↔
    ∃ n, Stands stored n ∧ total.toInt = n + amount.toInt := by
  rw [add?, Option.bind_eq_some_iff]
  constructor
  · rintro ⟨k, hRead, hSum⟩
    exact ⟨k.toInt, stands_iff.mpr ⟨k, hRead, rfl⟩, int64?_eq_some_iff.mp hSum⟩
  · rintro ⟨n, hStands, hTotal⟩
    obtain ⟨k, hRead, rfl⟩ := stands_iff.mp hStands
    exact ⟨k, hRead, int64?_eq_some_iff.mpr hTotal⟩

theorem add?_eq_none_iff : add? (stored.getD initial) amount = none ↔
    (¬ ∃ n, Stands stored n) ∨ ∃ n, Stands stored n ∧ ¬ InRange (n + amount.toInt) := by
  constructor
  · intro h
    by_cases hNumber : ∃ n, Stands stored n
    · obtain ⟨n, hStands⟩ := hNumber
      refine .inr ⟨n, hStands, fun hRange => ?_⟩
      obtain ⟨total, hTotal⟩ := exists_toInt hRange
      cases h.symm.trans (add?_eq_some_iff.mpr ⟨n, hStands, hTotal⟩)
    · exact .inl hNumber
  · intro h
    apply Option.eq_none_iff_forall_ne_some.mpr
    intro total hSome
    obtain ⟨n, hStands, hTotal⟩ := add?_eq_some_iff.mp hSome
    rcases h with hNone | ⟨m, hOther, hRange⟩
    · exact hNone ⟨n, hStands⟩
    · rw [hOther.unique hStands, ← hTotal] at hRange
      exact hRange (inRange_toInt total)

theorem counts_of_add? (hResult : add? (stored.getD initial) amount = result)
    (hLeft : left = (result.map text).or stored) : Counts stored amount result left := by
  subst hResult hLeft
  constructor
  · exact add?_eq_none_iff
  · intro h
    rw [h]
    rfl
  · intro total h
    obtain ⟨n, hStands, hTotal⟩ := add?_eq_some_iff.mp h
    refine ⟨n, hStands, hTotal, ?_⟩
    rw [h, ← text_eq]
    rfl
  · rintro rfl
    exact add?_initial amount

theorem stands_toString (k : Int64) : Stands (some (toString k.toInt)) k.toInt := by
  refine stands_iff.mpr ⟨k, ?_, rfl⟩
  rw [← text_eq]
  exact readInt64_intText k

/-- A cell that stands for a number stands for the sum after a call that answers it, and for the
same number after another one. -/
theorem Counts.stands (h : Counts stored amount result left) (hStands : Stands stored n) :
    Stands left (n + if result.isSome then amount.toInt else 0) := by
  cases result with
  | none =>
    rw [h.kept rfl]
    simpa using hStands
  | some total =>
    obtain ⟨m, hSame, hTotal, rfl⟩ := h.sum total rfl
    rw [hSame.unique hStands] at hTotal
    rw [Option.isSome_some, if_pos rfl, ← hTotal]
    exact stands_toString total

theorem Counts.kept_of_not_stands (h : Counts stored amount result left)
    (hNone : ¬ ∃ n, Stands stored n) : result = none ∧ left = stored :=
  ⟨h.none_iff.mpr (.inl hNone), h.kept (h.none_iff.mpr (.inl hNone))⟩

section
variable {σ : Type}

/-- Adds amounts, one after the other: what each call answers, and what they leave. -/
def addAll (add : σ → Int64 → Option Int64 × σ) : σ → List Int64 → List (Option Int64) × σ
  | s, [] => ([], s)
  | s, amount :: amounts =>
    let (result, s) := add s amount
    let (results, s) := addAll add s amounts
    (result :: results, s)

/-- The sum of the amounts whose calls answer a number. -/
def granted (amounts : List Int64) (results : List (Option Int64)) : Int :=
  (((amounts.zip results).filter (·.2.isSome)).map (·.1.toInt)).sum

/-- What adding amounts to a cell, one after the other, answers and leaves there. -/
structure Sums (stored : Option String) (amounts : List Int64) (results : List (Option Int64))
    (left : Option String) : Prop where
  length : results.length = amounts.length
  sum : ∀ n, Stands stored n → Stands left (n + granted amounts results)
  kept : (¬ ∃ n, Stands stored n) → left = stored ∧ ∀ result ∈ results, result = none

theorem granted_cons (amount : Int64) (amounts : List Int64) (result : Option Int64)
    (results : List (Option Int64)) :
    granted (amount :: amounts) (result :: results) =
      (if result.isSome then amount.toInt else 0) + granted amounts results := by
  cases result with
  | none => simp [granted]
  | some total => simp [granted]

/-- If every call on a state that it may be in counts for one cell, the calls add up. -/
theorem sums_addAll {add : σ → Int64 → Option Int64 × σ} {look : σ → Option String}
    {Known : σ → Prop} (hStep : ∀ s amount, Known s →
      Known (add s amount).2 ∧ Counts (look s) amount (add s amount).1 (look (add s amount).2))
    {s : σ} (hKnown : Known s) (amounts : List Int64) :
    Sums (look s) amounts (addAll add s amounts).1 (look (addAll add s amounts).2) := by
  induction amounts generalizing s with
  | nil =>
    refine ⟨rfl, fun n hStands => ?_, fun _ => ⟨rfl, nofun⟩⟩
    exact (Int.add_zero n).symm ▸ hStands
  | cons amount amounts ih =>
    obtain ⟨hNext, hCounts⟩ := hStep s amount hKnown
    have hRest := ih hNext
    constructor
    · exact congrArg Nat.succ hRest.length
    · intro n hStands
      rw [addAll, granted_cons, ← Int.add_assoc]
      exact hRest.sum _ (hCounts.stands hStands)
    · intro hNone
      obtain ⟨hResult, hSame⟩ := hCounts.kept_of_not_stands hNone
      rw [← hSame] at hNone
      obtain ⟨hLeft, hResults⟩ := hRest.kept hNone
      exact ⟨hLeft.trans hSame, List.forall_mem_cons.mpr ⟨hResult, hResults⟩⟩

end
end Counter

namespace Strings

def addAll (strings : Strings) (key : String) : List Int64 → List (Option Int64) × Strings :=
  Counter.addAll (fun strings => add strings key) strings

theorem counts_add (strings : Strings) (key : String) (amount : Int64) :
    Counter.Counts strings[key]? amount (strings.add key amount).1
      (strings.add key amount).2[key]? := by
  have hStored : (strings.insertIfNew key Counter.initial).getD key Counter.initial =
      strings[key]?.getD Counter.initial := by
    rw [Table.getD_insertIfNew, Std.ExtTreeMap.getD_eq_getD_getElem?]
  cases hAdd : Counter.add? (strings[key]?.getD Counter.initial) amount with
  | none =>
    have hNone : (strings.add key amount).1 = none := by
      simp only [add, hStored, hAdd]
    rw [add_of_none hNone, hNone]
    exact Counter.counts_of_add? hAdd rfl
  | some total =>
    simp only [add, hStored, hAdd]
    exact Counter.counts_of_add? hAdd Std.ExtTreeMap.getElem?_insert_self

end Strings

namespace Hashes

def addAll (hashes : Hashes) (key field : String) :
    List Int64 → List (Option Int64) × Hashes :=
  Counter.addAll (fun hashes => add hashes key field) hashes

variable {hashes : Hashes} {key : String}

theorem add_of_unknown (h : key ∉ hashes) (field : String) (amount : Int64) :
    hashes.add key field amount = (none, hashes) := by
  simp only [add, Std.ExtTreeMap.getElem?_eq_none h]

theorem counts_add (field : String) (hashes : Hashes) (amount : Int64) (h : key ∈ hashes) :
    key ∈ (hashes.add key field amount).2 ∧
      Counter.Counts (hashes.value? key field) amount (hashes.add key field amount).1
        ((hashes.add key field amount).2.value? key field) := by
  obtain ⟨hash, hHash⟩ := Option.isSome_iff_exists.mp
    (Std.ExtTreeMap.isSome_getElem?_iff_mem.mpr h)
  have hStored : hashes.value? key field = hash[field]? := by
    rw [value?, hHash, Option.bind_some]
  rw [hStored]
  cases hAdd : Counter.add? (hash[field]?.getD Counter.initial) amount with
  | none =>
    simp only [add, hHash, Std.ExtTreeMap.getD_eq_getD_getElem?, hAdd]
    exact ⟨h, Counter.counts_of_add? hAdd hStored⟩
  | some total =>
    simp only [add, hHash, Std.ExtTreeMap.getD_eq_getD_getElem?, hAdd]
    refine ⟨Std.ExtTreeMap.mem_insert_self, Counter.counts_of_add? hAdd ?_⟩
    rw [value?, Std.ExtTreeMap.getElem?_insert_self, Option.bind_some,
      Std.ExtTreeMap.getElem?_insert_self]
    rfl

end Hashes

namespace Counter

/-- A call on the text under a key, or on that in a field of a hash that is known, answers the exact
sum and leaves it as a text; it answers nothing, and leaves the text as it is, if that is no number
of 64 bits or the sum is none, and never where there is no text yet. So a run of calls adds up the
amounts of those that answer a number. On a hash that is not known a call does nothing. -/
theorem counts_and_sums :
    (∀ (strings : Strings) (key : String) (amount : Int64),
      Counts strings[key]? amount (strings.add key amount).1
        (strings.add key amount).2[key]?) ∧
    (∀ (hashes : Hashes) (key field : String) (amount : Int64), key ∈ hashes →
      Counts (hashes.value? key field) amount (hashes.add key field amount).1
        ((hashes.add key field amount).2.value? key field)) ∧
    (∀ (hashes : Hashes) (key field : String) (amount : Int64), key ∉ hashes →
      hashes.add key field amount = (none, hashes)) ∧
    (∀ (strings : Strings) (key : String) (amounts : List Int64),
      Sums strings[key]? amounts (strings.addAll key amounts).1
        (strings.addAll key amounts).2[key]?) ∧
    ∀ (hashes : Hashes) (key field : String) (amounts : List Int64), key ∈ hashes →
      Sums (hashes.value? key field) amounts (hashes.addAll key field amounts).1
        ((hashes.addAll key field amounts).2.value? key field) := by
  refine ⟨Strings.counts_add, ?_, ?_, ?_, ?_⟩
  · intro hashes key field amount hKnown
    exact (Hashes.counts_add field hashes amount hKnown).2
  · intro hashes key field amount hUnknown
    exact Hashes.add_of_unknown hUnknown field amount
  · intro strings key amounts
    have hStep : ∀ (strings : Strings) amount, True → True ∧ Counts strings[key]? amount
        (strings.add key amount).1 (strings.add key amount).2[key]? :=
      fun strings amount _ => ⟨trivial, Strings.counts_add strings key amount⟩
    exact sums_addAll hStep trivial amounts
  · intro hashes key field amounts hKnown
    exact sums_addAll (Hashes.counts_add field) hKnown amounts

/-- The second amount is too much for the first sum, and is refused. -/
theorem sums_of_refused :
    ∃ strings : Strings, strings["k"]? = some "+0042" ∧
      (strings.addAll "k" [1, Int64.maxValue, -3]).1 = [some 43, none, some 40] ∧
      Stands (strings.addAll "k" [1, Int64.maxValue, -3]).2["k"]? 40 := by
  have hText : ((∅ : Strings).insert "k" "+0042")["k"]? = some "+0042" :=
    Std.ExtTreeMap.getElem?_insert_self
  have hStands : Stands ((∅ : Strings).insert "k" "+0042")["k"]? 42 :=
    stands_iff.mpr ⟨42, by decide, rfl⟩
  have hResults : (Strings.addAll ((∅ : Strings).insert "k" "+0042") "k"
      [1, Int64.maxValue, -3]).1 = [some 43, none, some 40] := by decide
  have hSums := counts_and_sums.2.2.2.1 ((∅ : Strings).insert "k" "+0042") "k"
    [1, Int64.maxValue, -3]
  rw [hResults] at hSums
  exact ⟨_, hText, hResults, hSums.sum 42 hStands⟩

end Counter
end Keyspace
