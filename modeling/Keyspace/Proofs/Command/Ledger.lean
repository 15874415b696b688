import Mathlib.Algebra.BigOperators.Group.List.Basic
import Mathlib.Algebra.Order.Group.Multiset
import Mathlib.Tactic.Abel
import Keyspace.Proofs.Command.Run
import Keyspace.Proofs.Store.Outcomes

/-! # The ledger of the lists: each value that was pushed is in a list still, or was popped -/
namespace Keyspace
set_option autoImplicit false

theorem Direction.coe_push (d : Direction) (value : String) (list : List String) :
    (d.push value list : Multiset String) = value ::ₘ (list : Multiset String) := by
  cases d with
  | left => rfl
  | right => exact Multiset.coe_eq_coe.mpr (List.perm_append_singleton value list)

namespace Lists

variable {lists : Lists} {d : Direction} {key value : String} {rest : List String}

/-- The values of all the lists, each as often as it is in them. -/
def contents (lists : Lists) : Multiset String :=
  (lists.toList.map fun entry => (entry.2 : Multiset String)).sum

theorem contents_eq (lists : Lists) (key : String) :
    lists.contents = (lists.getD key [] : Multiset String) + contents (lists.erase key) := by
  rw [Std.ExtTreeMap.getD_eq_getD_getElem?]
  cases hFound : lists[key]? with
  | none =>
    rw [Table.erase_of_getElem?_none hFound, Option.getD_none, Multiset.coe_nil, zero_add]
  | some list =>
    have hPerm := (Table.toList_perm hFound).map fun entry => (entry.2 : Multiset String)
    exact hPerm.sum_eq

/-- A list that takes the place of another one brings its values for those of the other. -/
theorem contents_insert (lists : Lists) (key : String) (list : List String) :
    contents (lists.insert key list) + (lists.getD key [] : Multiset String) =
      lists.contents + (list : Multiset String) := by
  rw [contents_eq (lists.insert key list) key, contents_eq lists key, Table.erase_insert,
    Std.ExtTreeMap.getD_insert_self]
  abel

theorem contents_insert_getD (lists : Lists) (key : String) :
    contents (lists.insert key (lists.getD key [])) = lists.contents :=
  add_right_cancel (contents_insert lists key _)

theorem contents_push (lists : Lists) (d : Direction) (key value : String) :
    contents (lists.push d key value).2 = value ::ₘ lists.contents := by
  have hInsert := contents_insert lists key (d.push value (lists.getD key []))
  rw [Direction.coe_push, Multiset.add_cons, ← Multiset.cons_add] at hInsert
  exact add_right_cancel hInsert

theorem contents_take (h : d.pop (lists.getD key []) = some (value, rest)) :
    value ::ₘ contents (lists.insert key rest) = lists.contents := by
  have hInsert := contents_insert lists key rest
  rw [← Direction.push_pop h, Direction.coe_push, Multiset.add_cons, ← Multiset.cons_add] at hInsert
  exact add_right_cancel hInsert

theorem contents_pop (lists : Lists) (d : Direction) (key : String) :
    contents (lists.pop d key).2 + (lists.pop d key).1.elim 0 singleton = lists.contents := by
  obtain hNone | ⟨value, rest, hPop, hSome⟩ := lists.pop_cases d key
  · rw [hNone]
    exact (add_zero _).trans (contents_insert_getD lists key)
  · rw [hSome, ← contents_take hPop, Option.elim_some, add_comm, Multiset.singleton_add]

/-- A value that moves is taken out before it is pushed, so the destination may be the source. -/
theorem contents_move (lists : Lists) (source destination fromEnd toEnd : String) :
    contents (lists.move source destination fromEnd toEnd).2 = lists.contents := by
  obtain hNone | ⟨popEnd, pushEnd, value, rest, -, -, hPop, hSome⟩ :=
    lists.move_cases source destination fromEnd toEnd
  · rw [hNone]
    exact contents_insert_getD lists source
  · rw [hSome, contents_push]
    exact contents_take hPop

end Lists

namespace Reply

/-- The value that a reply gives, if it gives one. -/
def given : Reply → Multiset String
  | value text => {text}
  | _ => 0

theorem given_ofValue? (found : Option String) :
    (ofValue? found).given = found.elim 0 singleton := by
  cases found <;> rfl

end Reply

namespace Command

/-- What a command adds to the values of the lists. -/
def pushed : Command → Multiset String
  | lpush _ value | rpush _ value => {value}
  | _ => 0

/-- What a command takes from the values of the lists and gives in its reply. -/
def popped : Command → Reply → Multiset String
  | lpop _, reply | rpop _, reply => reply.given
  | _, _ => 0

/-- One command keeps the ledger, but for the one that cuts values off. -/
theorem execute_contents {c : Command} (h : c.verb ≠ .ltrim) (s : Store) :
    c.pushed + s.lists.contents =
      (c.execute s).2.lists.contents + c.popped (c.execute s).1 := by
  have hKept : ∀ {before after : Multiset String}, after = before → 0 + before = after + 0 := by
    rintro _ after rfl
    rw [zero_add, add_zero]
  cases c with
  | lpush | rpush =>
    simp only [execute, pushed, popped, Lists.contents_push, Multiset.singleton_add, add_zero]
  | lpop | rpop =>
    simp only [execute, pushed, popped, Reply.given_ofValue?, Lists.contents_pop, zero_add]
  | llen key => exact hKept (Lists.contents_insert_getD s.lists key)
  | lmove source destination fromEnd toEnd =>
    exact hKept (Lists.contents_move s.lists source destination fromEnd toEnd)
  | ltrim => exact absurd rfl h
  | zscore =>
    simp only [execute]
    split <;> exact hKept rfl
  | _ => exact hKept rfl

end Command

namespace Store

/-- What a run pushed, and what was there before, is there afterwards or was popped. -/
theorem perform_contents {commands : List Command} (h : ∀ c ∈ commands, c.verb ≠ .ltrim)
    (s : Store) :
    (commands.map Command.pushed).sum + s.lists.contents =
      (s.perform commands).2.lists.contents +
        ((s.history commands).map fun entry => entry.1.popped entry.2).sum := by
  induction commands generalizing s with
  | nil => exact (zero_add _).trans (add_zero _).symm
  | cons c commands ih =>
    obtain ⟨hFirst, hRest⟩ := List.forall_mem_cons.mp h
    have hStep := c.execute_contents hFirst s
    have hRun := ih hRest (c.execute s).2
    rw [perform_cons, history_cons, List.map_cons, List.map_cons, List.sum_cons, List.sum_cons]
    calc c.pushed + (commands.map Command.pushed).sum + s.lists.contents
      _ = (commands.map Command.pushed).sum + (c.pushed + s.lists.contents) := by abel
      _ = (commands.map Command.pushed).sum + (c.execute s).2.lists.contents +
            c.popped (c.execute s).1 := by rw [hStep, add_assoc]
      _ = _ := by
        rw [hRun]
        abel

/-- From the empty store on, the values that were pushed are those in the lists and those that were
popped, however they were moved, within a list or between two, and whichever moves were refused. -/
theorem perform_ledger {commands : List Command} (h : ∀ c ∈ commands, c.verb ≠ .ltrim)
    (chance : Chance) :
    (commands.map Command.pushed).sum =
      ((empty chance).perform commands).2.lists.contents +
        (((empty chance).history commands).map fun entry => entry.1.popped entry.2).sum := by
  have hEmpty : (empty chance).lists.contents = 0 := rfl
  have hRun := perform_contents h (empty chance)
  rwa [hEmpty, add_zero] at hRun

/-- A value goes round in its list, then is put back as there is no such end to move it to. -/
theorem ledger_of_moves :
    let commands : List Command := [.rpush "k" "a", .rpush "k" "b", .lmove "k" "k" "LEFT" "RIGHT",
      .lmove "k" "j" "LEFT" "UP", .lmove "j" "k" "LEFT" "LEFT", .lpop "k"]
    (∀ c ∈ commands, c.verb ≠ .ltrim) ∧
      ((empty default).perform commands).1 =
        [.integer 1, .integer 2, .value "a", .nil, .nil, .value "b"] ∧
      {"a", "b"} = ((empty default).perform commands).2.lists.contents + {"b"} := by
  intro commands
  have hVerbs : ∀ c ∈ commands, c.verb ≠ .ltrim := by decide
  have hReplies : ((empty default).perform commands).1 =
      [.integer 1, .integer 2, .value "a", .nil, .nil, .value "b"] := rfl
  have hLedger := perform_ledger hVerbs default
  rw [history, hReplies] at hLedger
  exact ⟨hVerbs, hReplies, hLedger⟩

end Store
end Keyspace
