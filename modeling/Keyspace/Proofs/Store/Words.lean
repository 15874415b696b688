import Keyspace.Store.Basic
import Keyspace.Proofs.SkipList.Range
import Keyspace.Proofs.Text.Numeral

/-! # Words in the store: what is held was once an argument, or the text of a counter -/
namespace Keyspace
open Text
set_option autoImplicit false

def Each {β : Type} (m : Std.ExtTreeMap String β) (holds : String → β → Prop) : Prop :=
  ∀ key value, m[key]? = some value → holds key value

namespace Each

variable {β : Type} {m : Std.ExtTreeMap String β} {holds : String → β → Prop}

theorem empty : Each (∅ : Std.ExtTreeMap String β) holds := by
  intro key value hValue
  rw [Std.ExtTreeMap.getElem?_empty] at hValue
  cases hValue

theorem insert (h : Each m holds) {key : String} {value : β} (hNew : holds key value) :
    Each (m.insert key value) holds := by
  intro other found hFound
  rw [Std.ExtTreeMap.getElem?_insert] at hFound
  split at hFound
  · rename_i hEq
    cases hFound
    rwa [← Std.LawfulEqOrd.eq_of_compare hEq]
  · exact h other found hFound

theorem insertIfNew (h : Each m holds) {key : String} {value : β} (hNew : holds key value) :
    Each (m.insertIfNew key value) holds := by
  intro other found hFound
  rw [Std.ExtTreeMap.getElem?_insertIfNew] at hFound
  split at hFound
  · rename_i hEq
    cases hFound
    rwa [← Std.LawfulEqOrd.eq_of_compare hEq.1]
  · exact h other found hFound

theorem erase (h : Each m holds) (key : String) : Each (m.erase key) holds := by
  intro other found hFound
  rw [Std.ExtTreeMap.getElem?_erase] at hFound
  split at hFound
  · cases hFound
  · exact h other found hFound

theorem getD (h : Each m holds) {key : String} (fallback : β) (hFallback : holds key fallback) :
    holds key (m.getD key fallback) := by
  rw [Std.ExtTreeMap.getD_eq_getD_getElem?]
  cases hFound : m[key]? with
  | none => exact hFallback
  | some value => exact h key value hFound

end Each

theorem Direction.mem_push {d : Direction} {value other : String} {list : List String} :
    other ∈ d.push value list ↔ other = value ∨ other ∈ list := by
  cases d <;> simp [push, or_comm]

namespace Strings

def Worded (strings : Strings) : Prop := Each strings fun key value => IsWord key ∧ IsWord value

variable {strings : Strings} {key : String}

theorem Worded.add (h : strings.Worded) (hKey : IsWord key) (amount : Int64) :
    (strings.add key amount).2.Worded := by
  have hKnown : Worded (strings.insertIfNew key Counter.initial) :=
    Each.insertIfNew h ⟨hKey, by decide⟩
  rw [Strings.add]
  split
  · exact hKnown
  · exact hKnown.insert ⟨hKey, isWord_intText _⟩

end Strings

namespace Lists

def Worded (lists : Lists) : Prop :=
  Each lists fun key list => IsWord key ∧ ∀ value ∈ list, IsWord value

variable {lists : Lists} {key : String}

theorem Worded.getD_nil (h : lists.Worded) (hKey : IsWord key) :
    IsWord key ∧ ∀ value ∈ lists.getD key [], IsWord value :=
  Each.getD h [] ⟨hKey, by simp⟩

theorem Worded.insert_push (h : lists.Worded) (d : Direction) (hKey : IsWord key) {value : String}
    (hValue : IsWord value) {list : List String} (hList : ∀ other ∈ list, IsWord other) :
    Worded (lists.insert key (d.push value list)) := by
  refine h.insert ⟨hKey, fun other hOther => ?_⟩
  rcases Direction.mem_push.mp hOther with rfl | hOther
  · exact hValue
  · exact hList other hOther

theorem Worded.push (h : lists.Worded) (d : Direction) (hKey : IsWord key) {value : String}
    (hValue : IsWord value) : (lists.push d key value).2.Worded :=
  h.insert_push d hKey hValue (h.getD_nil hKey).2

theorem isWord_of_pop {d : Direction} {list rest : List String} {value : String}
    (hPop : d.pop list = some (value, rest)) (h : ∀ other ∈ list, IsWord other) :
    IsWord value ∧ ∀ other ∈ rest, IsWord other := by
  rw [← Direction.push_pop hPop] at h
  refine ⟨h value (Direction.mem_push.mpr (.inl rfl)), fun other hOther => ?_⟩
  exact h other (Direction.mem_push.mpr (.inr hOther))

theorem Worded.pop (h : lists.Worded) (d : Direction) (hKey : IsWord key) :
    (lists.pop d key).2.Worded := by
  have hList := h.getD_nil hKey
  simp only [Lists.pop]
  split
  · exact h.insert hList
  · rename_i value rest hPop
    exact h.insert ⟨hKey, (isWord_of_pop hPop hList.2).2⟩

theorem Worded.length (h : lists.Worded) (hKey : IsWord key) : (lists.length key).2.Worded :=
  h.insert (h.getD_nil hKey)

theorem Worded.move (h : lists.Worded) {source destination : String} (hSource : IsWord source)
    (hDestination : IsWord destination) (fromEnd toEnd : String) :
    (lists.move source destination fromEnd toEnd).2.Worded := by
  have hList := h.getD_nil hSource
  simp only [Lists.move]
  split
  · exact h.insert hList
  · split
    · exact h.insert hList
    · rename_i value rest hPop
      obtain ⟨hValue, hRest⟩ := isWord_of_pop hPop hList.2
      split
      · exact h.insert_push _ hSource hValue hRest
      · have hTaken : Worded (lists.insert source rest) := h.insert ⟨hSource, hRest⟩
        exact hTaken.insert_push _ hDestination hValue (hTaken.getD_nil hDestination).2

theorem Worded.trim (h : lists.Worded) (start stop : Int64) :
    (lists.trim key start stop).2.Worded := by
  rw [Lists.trim]
  split
  · exact h
  · rename_i list hList
    obtain ⟨hKey, hValues⟩ := h key list hList
    split
    · exact h.insert ⟨hKey, by simp⟩
    · refine h.insert ⟨hKey, fun value hValue => ?_⟩
      exact hValues value (List.mem_of_mem_take (List.mem_of_mem_drop hValue))

end Lists

namespace Sets

def Worded (sets : Sets) : Prop :=
  Each sets fun key set => IsWord key ∧ ∀ member ∈ set, IsWord member

variable {sets : Sets} {key member : String}

theorem Worded.add (h : sets.Worded) (hKey : IsWord key) (hMember : IsWord member) :
    (sets.add key member).2.Worded := by
  have hSet := Each.getD h ∅ ⟨hKey, fun other hOther => absurd hOther Std.ExtTreeSet.not_mem_empty⟩
  refine h.insert ⟨hKey, fun other hOther => ?_⟩
  rcases Std.ExtTreeSet.mem_insert.mp hOther with hEq | hOther
  · rwa [← Std.LawfulEqOrd.eq_of_compare hEq]
  · exact hSet.2 other hOther

theorem Worded.remove (h : sets.Worded) : (sets.remove key member).2.Worded := by
  rw [Sets.remove]
  split
  · exact h
  · rename_i set hSet
    obtain ⟨hKey, hMembers⟩ := h key set hSet
    refine h.insert ⟨hKey, fun other hOther => ?_⟩
    exact hMembers other (Std.ExtTreeSet.mem_erase.mp hOther).2

end Sets

namespace Hashes

def Worded (hashes : Hashes) : Prop :=
  Each hashes fun key hash => IsWord key ∧ Each hash fun field value => IsWord field ∧ IsWord value

variable {hashes : Hashes} {key field : String}

theorem worded_putAll {hash : Hash}
    (h : Each hash fun field value => IsWord field ∧ IsWord value) {pairs : List (String × String)}
    (hPairs : ∀ pair ∈ pairs, IsWord pair.1 ∧ IsWord pair.2) :
    Each (hash.putAll pairs).2 fun field value => IsWord field ∧ IsWord value := by
  induction pairs generalizing hash with
  | nil => exact h
  | cons pair rest ih =>
    obtain ⟨hPair, hRest⟩ := List.forall_mem_cons.mp hPairs
    exact ih (h.insert hPair) hRest

theorem Worded.put (h : hashes.Worded) (hKey : IsWord key) {pairs : List (String × String)}
    (hPairs : ∀ pair ∈ pairs, IsWord pair.1 ∧ IsWord pair.2) :
    (hashes.put key pairs).2.Worded :=
  h.insert ⟨hKey, worded_putAll (Each.getD h ∅ ⟨hKey, .empty⟩).2 hPairs⟩

theorem Worded.add (h : hashes.Worded) (hField : IsWord field) (amount : Int64) :
    (hashes.add key field amount).2.Worded := by
  rw [Hashes.add]
  split
  · exact h
  · rename_i hash hHash
    obtain ⟨hKey, hValues⟩ := h key hash hHash
    split
    · exact h
    · exact h.insert ⟨hKey, hValues.insert ⟨hField, isWord_intText _⟩⟩

end Hashes

namespace ScoreMap

def Worded (m : ScoreMap) : Prop := Each m fun member score => IsWord member ∧ score ≠ .nan

variable {m : ScoreMap}

theorem Worded.put (h : m.Worded) {member : String} (hMember : IsWord member) (score : Score) :
    (m.put member score).2.Worded := by
  rw [ScoreMap.put]
  split
  · exact h
  · rename_i hNaN
    have hScore : score ≠ .nan := mt Score.isNaN_iff.mpr hNaN
    split
    · dsimp only
      split
      · exact h
      · exact Each.insert h ⟨hMember, hScore⟩
    · exact Each.insert h ⟨hMember, hScore⟩

theorem Worded.eraseAll (h : m.Worded) (dropped : List ScoredMember) :
    (m.eraseAll dropped).Worded := by
  induction dropped generalizing m with
  | nil => exact h
  | cons entry rest ih => exact ih (Each.erase h entry.1)

end ScoreMap

namespace SkipList

/-- A list as the operations leave it, that holds words with their scores. -/
def Worded (l : SkipList) : Prop := (∃ towers, l.WellFormed towers) ∧ ScoreMap.Worded l.scores

variable {l : SkipList}

theorem worded_empty (coins : Coins) : (empty coins).Worded :=
  ⟨⟨[], wellFormed_empty coins⟩, .empty⟩

theorem Realizes.worded {α : Type} {result : α × SkipList} {expected : α × ScoreMap}
    (h : Realizes (some result) expected) (hWords : expected.2.Worded) : result.2.Worded := by
  obtain ⟨l, towers, hResult, hWellFormed, hScores⟩ := h
  cases hResult
  exact ⟨⟨towers, hWellFormed⟩, hScores ▸ hWords⟩

theorem Worded.entry (h : l.Worded) {entry : ScoredMember}
    (hEntry : entry ∈ ScoreMap.entries l.scores) : IsWord entry.1 ∧ entry.2 ≠ .nan := by
  obtain ⟨⟨towers, hWellFormed⟩, hWords⟩ := h
  exact hWords entry.1 entry.2 ((hWellFormed.mem_entries_iff entry.1 entry.2).mp hEntry)

theorem Worded.toList (h : l.Worded) : ∀ entry ∈ l.toList, IsWord entry.1 ∧ entry.2 ≠ .nan := by
  intro entry hEntry
  obtain ⟨towers, hWellFormed⟩ := h.1
  rw [SkipList.toList, hWellFormed.toList?_eq] at hEntry
  exact h.entry hEntry

end SkipList

namespace SortedSets

def Worded (sets : SortedSets) : Prop := Each sets fun key l => IsWord key ∧ l.Worded

variable {sets : SortedSets} {key member : String}

theorem Worded.add (h : sets.Worded) (coins : Coins) (hKey : IsWord key) (hMember : IsWord member)
    (score : Score) : (sets.add coins key score member).2.Worded := by
  rw [SortedSets.add]
  split
  · exact h
  · obtain ⟨-, hList⟩ := Each.getD h (SkipList.empty coins) ⟨hKey, SkipList.worded_empty coins⟩
    obtain ⟨towers, hWellFormed⟩ := hList.1
    have hWords := hList.2.put hMember score
    exact h.insert ⟨hKey, (hWellFormed.realizes_insert member score).worded hWords⟩

theorem Worded.remove (h : sets.Worded) : (sets.remove key member).2.Worded := by
  rw [SortedSets.remove]
  split
  · exact h
  · rename_i l hFound
    obtain ⟨hKey, ⟨towers, hWellFormed⟩, hWords⟩ := h key l hFound
    exact h.insert ⟨hKey, (hWellFormed.realizes_remove member).worded (Each.erase hWords member)⟩

theorem Worded.removeRange (h : sets.Worded) (minScore maxScore : Score) (offset count : Nat) :
    (sets.removeRange key minScore maxScore offset count).2.Worded := by
  rw [SortedSets.removeRange]
  split
  · exact h
  · rename_i l hFound
    obtain ⟨hKey, ⟨towers, hWellFormed⟩, hWords⟩ := h key l hFound
    exact h.insert ⟨hKey, (hWellFormed.realizes_removeRange minScore maxScore offset count).worded
      (hWords.eraseAll _)⟩

end SortedSets

/-- Every key, member, field and value that is held is a word, and every score a number. -/
structure Store.Worded (s : Store) : Prop where
  sortedSets : s.sortedSets.Worded
  strings : s.strings.Worded
  lists : s.lists.Worded
  sets : s.sets.Worded
  hashes : s.hashes.Worded

theorem Store.worded_empty (chance : Chance) : (Store.empty chance).Worded :=
  ⟨.empty, .empty, .empty, .empty, .empty⟩

end Keyspace
