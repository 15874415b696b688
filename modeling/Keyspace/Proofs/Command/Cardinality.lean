import Mathlib.Algebra.Ring.Int.Defs
import Keyspace.Proofs.Command.Footprint
import Keyspace.Proofs.Command.Run
import Keyspace.Proofs.Store.Cardinality

/-! # Accounts: the replies to the changes of a set add up to the number of its members -/
namespace Keyspace
set_option autoImplicit false

/-- The number that a reply gives; `nil` counts for nothing. -/
def Reply.number : Reply → Int
  | integer n => n
  | _ => 0

theorem Reply.number_ofNat? (found : Option Nat) : (ofNat? found).number = (found.getD 0 : Nat) := by
  cases found <;> rfl

namespace Command

/-- What a reply counts for, where the replies to one verb on one cell are added up. -/
def share (c : Command) (reply : Reply) (cell : Cell) (verb : Verb) : Int :=
  if c.verb = verb ∧ cell ∈ c.footprint then reply.number else 0

variable {c : Command} {s : Store} {key : String}

theorem share_of_not_mem {cell : Cell} (h : cell ∉ c.footprint) (reply : Reply) (verb : Verb) :
    c.share reply cell verb = 0 :=
  if_neg fun hBoth => h hBoth.2

/-- One command changes the number of members of a sorted set by what its reply says. -/
theorem execute_zcard (c : Command) (h : s.Sound) (key : String) :
    let share := c.share (c.execute s).1 ⟨.sortedSets, key⟩
    ((c.execute s).2.sortedSets.card key : Int) =
      s.sortedSets.card key + share .zadd - share .zrem - share .zrangedel := by
  intro share
  by_cases hCell : ⟨.sortedSets, key⟩ ∈ c.footprint
  · cases c with
    | zadd key score member =>
      cases List.mem_singleton.mp hCell
      have hCard := SortedSets.Sound.card_add h (s.chance.coins key) key score member
      simp only [share, Command.share, verb, hCell, execute, Reply.ofBool, Reply.number, reduceCtorEq,
        and_true, if_true, if_false]
      omega
    | zrem _ member =>
      cases List.mem_singleton.mp hCell
      have hCard := SortedSets.Sound.card_remove h key member
      simp only [share, Command.share, verb, hCell, execute, Reply.ofBool, Reply.number, reduceCtorEq,
        and_true, if_true, if_false]
      omega
    | zrangedel _ minScore maxScore offset count =>
      cases List.mem_singleton.mp hCell
      have hCard := SortedSets.Sound.card_removeRange h key minScore maxScore offset count
      simp only [share, Command.share, verb, hCell, execute, Reply.number, reduceCtorEq,
        and_true, if_true, if_false]
      omega
    | zscore | zrange | zquery | zcard =>
      rw [execute_of_asks rfl]
      simp [share, Command.share, verb]
    | _ => simp [footprint] at hCell
  · have hFrame : (c.execute s).2.sortedSets[key]? = s.sortedSets[key]? :=
      c.confined.frame s _ hCell
    have hCard : (c.execute s).2.sortedSets.card key = s.sortedSets.card key := by
      rw [SortedSets.card, hFrame, SortedSets.card]
    simp [share, share_of_not_mem hCell, hCard]

theorem execute_scard (c : Command) (s : Store) (key : String) :
    let share := c.share (c.execute s).1 ⟨.sets, key⟩
    ((c.execute s).2.sets.card key : Int) = s.sets.card key + share .sadd - share .srem := by
  intro share
  by_cases hCell : ⟨.sets, key⟩ ∈ c.footprint
  · cases c with
    | sadd _ member =>
      cases List.mem_singleton.mp hCell
      have hCard := s.sets.card_add key member
      simp only [share, Command.share, verb, hCell, execute, Reply.number, reduceCtorEq,
        and_true, if_true, if_false]
      omega
    | srem _ member =>
      cases List.mem_singleton.mp hCell
      have hCard := s.sets.card_remove key member
      simp only [share, Command.share, verb, hCell, execute, Reply.number_ofNat?, reduceCtorEq,
        and_true, if_true, if_false]
      omega
    | sismember | sinter | scard =>
      rw [execute_of_asks rfl]
      simp [share, Command.share, verb]
    | _ => simp [footprint] at hCell
  · have hFrame : (c.execute s).2.sets[key]? = s.sets[key]? := c.confined.frame s _ hCell
    have hCard : (c.execute s).2.sets.card key = s.sets.card key := by
      rw [Sets.card, hFrame, Sets.card]
    simp [share, share_of_not_mem hCell, hCard]

end Command

namespace Store

/-- What the replies to one verb on one cell come to in a run. -/
def tally (s : Store) (commands : List Command) (cell : Cell) (verb : Verb) : Int :=
  ((s.history commands).map fun entry => entry.1.share entry.2 cell verb).sum

theorem tally_cons (s : Store) (c : Command) (commands : List Command) (cell : Cell)
    (verb : Verb) : s.tally (c :: commands) cell verb =
      c.share (c.execute s).1 cell verb + (c.execute s).2.tally commands cell verb := by
  rw [tally, history_cons, List.map_cons, List.sum_cons, tally]

theorem perform_zcard (commands : List Command) {s : Store} (h : s.Sound) (key : String) :
    let total := s.tally commands ⟨.sortedSets, key⟩
    ((s.perform commands).2.sortedSets.card key : Int) =
      s.sortedSets.card key + total .zadd - total .zrem - total .zrangedel := by
  induction commands generalizing s with
  | nil => simp [perform, tally, history]
  | cons c commands ih =>
    have hStep := c.execute_zcard h key
    have hRun := ih (c.execute_sound h)
    simp only [perform_cons, tally_cons]
    omega

theorem perform_scard (commands : List Command) (s : Store) (key : String) :
    let total := s.tally commands ⟨.sets, key⟩
    ((s.perform commands).2.sets.card key : Int) =
      s.sets.card key + total .sadd - total .srem := by
  induction commands generalizing s with
  | nil => simp [perform, tally, history]
  | cons c commands ih =>
    have hStep := c.execute_scard s key
    have hRun := ih (c.execute s).2
    simp only [perform_cons, tally_cons]
    omega

/-- After a run from the empty store, the members of a sorted set that are counted are those that
the replies say were added, less those that they say were removed, one by one or as a range; a range
over all scores finds as many. The members of a set are accounted for in the same way. -/
theorem card_eq_tally (chance : Chance) (commands : List Command) (key : String) :
    let s := ((empty chance).perform commands).2
    let scored := (empty chance).tally commands ⟨.sortedSets, key⟩
    let total := (empty chance).tally commands ⟨.sets, key⟩
    ∃ members : Nat,
      (members : Int) = scored .zadd - scored .zrem - scored .zrangedel ∧
      ((Command.zcard key).execute s).1 = .integer members ∧
      (∀ count, members ≤ count → ∃ entries, entries.length = members ∧
        ((Command.zrange key .negInfinity .infinity 0 count).execute s).1 = .pairs entries) ∧
      ((Command.scard key).execute s).1 = .integer (total .sadd - total .srem) := by
  intro s scored total
  have hSound : s.Sound := perform_sound commands (sound_empty chance)
  have hScored : (s.sortedSets.card key : Int) = 0 + scored .zadd - scored .zrem -
      scored .zrangedel := perform_zcard commands (sound_empty chance) key
  have hTotal : (s.sets.card key : Int) = 0 + total .sadd - total .srem :=
    perform_scard commands (empty chance) key
  rw [Int.zero_add] at hScored hTotal
  refine ⟨s.sortedSets.card key, hScored, rfl, ?_, congrArg Reply.integer hTotal⟩
  intro count hCount
  exact ⟨_, SortedSets.Sound.length_range_all hSound hCount, rfl⟩

/-- A member that gets another score, and a score that is not a number, count for nothing. -/
theorem card_of_rescored :
    let commands : List Command := [.zadd "k" .infinity "a", .zadd "k" .zero "b",
      .zadd "k" .nan "c", .zadd "k" .zero "a", .zrangedel "k" .negInfinity .zero 1 9,
      .zrem "k" "b"]
    ((empty default).perform commands).1 = [.integer 1, .integer 1, .integer 0, .integer 0, .integer 1,
        .integer 0] ∧
      1 ≤ 2 ∧ ∃ entries, entries.length = 1 ∧
        ((Command.zrange "k" .negInfinity .infinity 0 2).execute
          ((empty default).perform commands).2).1 = .pairs entries := by
  intro commands
  obtain ⟨members, hMembers, -, hRange, -⟩ := card_eq_tally default commands "k"
  have hTally : (empty default).tally commands ⟨.sortedSets, "k"⟩ .zadd -
      (empty default).tally commands ⟨.sortedSets, "k"⟩ .zrem -
      (empty default).tally commands ⟨.sortedSets, "k"⟩ .zrangedel = 1 := rfl
  obtain rfl : members = 1 := by omega
  exact ⟨rfl, by decide, hRange 2 (by decide)⟩

end Store
end Keyspace
