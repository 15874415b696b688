import Keyspace.Proofs.Command.Run
import Keyspace.Proofs.Store.Cells
import Keyspace.Proofs.Store.Outcomes

/-! # Existence: which keys are known is told by the history of commands and replies -/
namespace Keyspace
set_option autoImplicit false

section
variable {σ ι : Type}

/-- What is known after a change is what was known before it, and some places. -/
def Opens (known : σ → ι → Prop) (s t : σ) (places : List ι) : Prop :=
  ∀ place, known t place ↔ known s place ∨ place ∈ places

namespace Opens

variable {known : σ → ι → Prop} {s t u : σ} {places others : List ι}

theorem refl (known : σ → ι → Prop) (s : σ) : Opens known s s [] := by
  intro place
  rw [List.mem_nil_iff, or_false]

theorem trans (h : Opens known s t places) (hOther : Opens known t u others) :
    Opens known s u (places ++ others) := by
  intro place
  rw [hOther place, h place, List.mem_append, or_assoc]

end Opens
end

namespace Table

variable {β : Type} {key : String} {m n : Table β}

def Knows (m : Table β) (key : String) : Prop := key ∈ m

theorem not_knows_iff : ¬ m.Knows key ↔ m[key]? = none := by
  rw [Knows, Std.ExtTreeMap.mem_iff_isSome_getElem?, Option.not_isSome_iff_eq_none]

theorem opens_insert (m : Table β) (key : String) (value : β) :
    Opens Knows m (m.insert key value) [key] := by
  intro other
  rw [Knows, mem_insert, or_comm, List.mem_singleton, eq_comm]
  rfl

/-- An operation that leaves an unknown key alone opens nothing. -/
theorem opens_of_change (hNone : m[key]? = none → n = m)
    (hSome : ∀ held, m[key]? = some held → ∃ value, n = m.insert key value) :
    Opens Knows m n [] := by
  cases hFound : m[key]? with
  | none =>
    rw [hNone hFound]
    exact .refl _ m
  | some held =>
    obtain ⟨value, rfl⟩ := hSome held hFound
    have hKnown : key ∈ m := Std.ExtTreeMap.mem_iff_isSome_getElem?.mpr (hFound ▸ rfl)
    intro other
    rw [Knows, mem_insert, List.mem_nil_iff, or_false]
    exact or_iff_right_of_imp fun hEq => hEq ▸ hKnown

end Table

open Table

namespace SortedSets

variable (sets : SortedSets) (key : String)

theorem opens_add (coins : Coins) (score : Score) (member : String) :
    Opens Knows sets (sets.add coins key score member).2 (if score.isNaN then [] else [key]) := by
  rw [add]
  split
  · exact .refl _ sets
  · exact opens_insert sets key _

theorem opens_remove (member : String) : Opens Knows sets (sets.remove key member).2 [] := by
  apply opens_of_change
  · intro hNone
    rw [remove, hNone]
  · intro list hSome
    rw [remove, hSome]
    exact ⟨_, rfl⟩

theorem opens_removeRange (minScore maxScore : Score) (offset count : Nat) :
    Opens Knows sets (sets.removeRange key minScore maxScore offset count).2 [] := by
  apply opens_of_change
  · intro hNone
    rw [removeRange, hNone]
  · intro list hSome
    rw [removeRange, hSome]
    exact ⟨_, rfl⟩

end SortedSets

namespace Lists

variable (lists : Lists) (d : Direction) (key : String)

theorem opens_pop : Opens Knows lists (lists.pop d key).2 [key] := by
  obtain hNone | ⟨value, rest, -, hSome⟩ := lists.pop_cases d key
  · rw [hNone]
    exact opens_insert lists key _
  · rw [hSome]
    exact opens_insert lists key rest

/-- The source is opened by every move, the destination only by one that moves a value. -/
theorem opens_move (source destination fromEnd toEnd : String) :
    Opens Knows lists (lists.move source destination fromEnd toEnd).2
      (source :: (lists.move source destination fromEnd toEnd).1.elim [] fun _ =>
        [destination]) := by
  obtain hNone | ⟨popEnd, pushEnd, value, rest, -, -, -, hSome⟩ :=
    lists.move_cases source destination fromEnd toEnd
  · rw [hNone]
    exact opens_insert lists source _
  · rw [hSome]
    exact (opens_insert lists source rest).trans (opens_insert _ destination _)

theorem opens_trim (start stop : Int64) : Opens Knows lists (lists.trim key start stop).2 [] := by
  apply opens_of_change
  · intro hNone
    rw [trim, hNone]
  · intro list hSome
    simp only [trim, hSome]
    split <;> exact ⟨_, rfl⟩

end Lists

theorem Sets.opens_remove (sets : Sets) (key member : String) :
    Opens Knows sets (sets.remove key member).2 [] := by
  apply opens_of_change
  · intro hNone
    rw [remove, hNone]
  · intro set hSome
    rw [remove, hSome]
    exact ⟨_, rfl⟩

theorem Hashes.opens_add (hashes : Hashes) (key field : String) (amount : Int64) :
    Opens Knows hashes (hashes.add key field amount).2 [] := by
  rw [add]
  split
  · exact .refl _ hashes
  · rename_i hash hSome
    split
    · exact .refl _ hashes
    · exact opens_of_change (fun hNone => by rw [hNone] at hSome; cases hSome) fun _ _ => ⟨_, rfl⟩

namespace Store

variable {s : Store} {cell : Cell}

/-- A cell is known if its namespace has the key. Only from the strings are keys removed, and no
cell of theirs counts as known here. -/
def Knows (s : Store) (cell : Cell) : Prop :=
  cell.space ≠ .strings ∧ (s.table cell.space).Knows cell.key

theorem opens_withTable (s : Store) (n : Namespace) (hSpace : n ≠ .strings)
    {table : Table n.Held} {keys : List String} (h : Opens Table.Knows (s.table n) table keys) :
    Opens Knows s (s.withTable n table) (keys.map (Cell.mk n)) := by
  rintro ⟨m, key⟩
  by_cases hSame : m = n
  · subst hSame
    simp [Knows, table_withTable, hSpace, h key]
  · simp [Knows, table_withTable_of_ne s hSame, Ne.symm hSame]

theorem opens_withStrings (s : Store) (strings : Strings) :
    Opens Knows s { s with strings } [] := by
  rintro ⟨n, key⟩
  rw [List.mem_nil_iff, or_false]
  cases n with
  | strings => exact ⟨fun h => absurd rfl h.1, fun h => absurd rfl h.1⟩
  | _ => rfl

theorem not_knows_iff {n : Namespace} (hSpace : n ≠ .strings) {key : String} :
    ¬ s.Knows ⟨n, key⟩ ↔ (s.table n)[key]? = none := by
  rw [← Table.not_knows_iff, Knows, not_and]
  exact ⟨fun h => h hSpace, fun h _ => h⟩

theorem not_knows_empty (chance : Chance) (cell : Cell) : ¬ (empty chance).Knows cell := by
  rintro ⟨-, hKnown⟩
  obtain ⟨n, key⟩ := cell
  cases n <;> exact Std.ExtTreeMap.not_mem_empty hKnown

end Store

namespace Command

/-- The cells that are known after a command has had a reply, whatever was known before. -/
def opens : Command → Reply → List Cell
  | zadd key score _, _ => (if score.isNaN then [] else [key]).map (Cell.mk .sortedSets)
  | lpush key _, _ | rpush key _, _ | lpop key, _ | rpop key, _ | llen key, _ => [⟨.lists, key⟩]
  | lmove source destination _ _, .value _ => [⟨.lists, source⟩, ⟨.lists, destination⟩]
  | lmove source _ _ _, _ => [⟨.lists, source⟩]
  | sadd key _, _ => [⟨.sets, key⟩]
  | hset key _, _ => [⟨.hashes, key⟩]
  | _, _ => []

theorem opens_execute (c : Command) (s : Store) :
    Opens Store.Knows s (c.execute s).2 (c.opens (c.execute s).1) := by
  cases c with
  | zadd key score member =>
    exact Store.opens_withTable s .sortedSets nofun (s.sortedSets.opens_add key _ score member)
  | zrem key member =>
    exact Store.opens_withTable s .sortedSets nofun (s.sortedSets.opens_remove key member)
  | zrangedel key minScore maxScore offset count =>
    exact Store.opens_withTable s .sortedSets nofun
      (s.sortedSets.opens_removeRange key minScore maxScore offset count)
  | set | del | incrby => exact Store.opens_withStrings s _
  | lpush key | rpush key | llen key =>
    exact Store.opens_withTable s .lists nofun (opens_insert s.lists key _)
  | lpop key => exact Store.opens_withTable s .lists nofun (s.lists.opens_pop .left key)
  | rpop key => exact Store.opens_withTable s .lists nofun (s.lists.opens_pop .right key)
  | lmove source destination fromEnd toEnd =>
    have hOpened : ∀ found : Option String,
        (lmove source destination fromEnd toEnd).opens (.ofValue? found) =
          (source :: found.elim [] fun _ => [destination]).map (Cell.mk .lists) := by
      rintro (_ | _) <;> rfl
    simp only [execute, hOpened]
    exact Store.opens_withTable s .lists nofun (s.lists.opens_move source destination fromEnd toEnd)
  | ltrim key start stop =>
    exact Store.opens_withTable s .lists nofun (s.lists.opens_trim key start stop)
  | sadd key => exact Store.opens_withTable s .sets nofun (opens_insert s.sets key _)
  | srem key member => exact Store.opens_withTable s .sets nofun (s.sets.opens_remove key member)
  | hset key pairs => exact Store.opens_withTable s .hashes nofun (opens_insert s.hashes key _)
  | hincrby key field amount =>
    exact Store.opens_withTable s .hashes nofun (s.hashes.opens_add key field amount)
  | zscore =>
    simp only [execute]
    split <;> exact .refl _ s
  | _ => exact .refl _ s

end Command

namespace Store

/-- The cells that the commands of a run opened, as the history of the run tells. -/
def opened (s : Store) (commands : List Command) : List Cell :=
  (s.history commands).flatMap fun entry => entry.1.opens entry.2

theorem opens_perform (s : Store) (commands : List Command) :
    Opens Knows s (s.perform commands).2 (s.opened commands) := by
  induction commands generalizing s with
  | nil => exact .refl _ s
  | cons c commands ih =>
    rw [perform_cons, opened, history_cons, List.flatMap_cons]
    exact (c.opens_execute s).trans (ih (c.execute s).2)

theorem knows_perform_empty (chance : Chance) (commands : List Command) (cell : Cell) :
    ((empty chance).perform commands).2.Knows cell ↔ cell ∈ (empty chance).opened commands := by
  rw [(empty chance).opens_perform commands cell, or_iff_right (not_knows_empty chance cell)]

end Store

namespace Reply

theorem ofList?_eq_nil_iff {found : Option (List String)} : ofList? found = nil ↔ found = none := by
  cases found <;> simp [ofList?]

theorem ofNat?_eq_nil_iff {found : Option Nat} : ofNat? found = nil ↔ found = none := by
  cases found <;> simp [ofNat?]

end Reply

namespace Store

/-- After a run from the empty store, a key that no command of the run opened has no reply where a
list, a set or a hash is asked for that must be known, and a key that was opened has one. What is
known stays known, whatever is done to it. -/
theorem nil_iff_not_opened (chance : Chance) (commands : List Command) :
    let s := ((empty chance).perform commands).2
    let opened := (empty chance).opened commands
    (∀ key start stop,
        ((Command.lrange key start stop).execute s).1 = .nil ↔ ⟨.lists, key⟩ ∉ opened) ∧
      (∀ key start stop,
        ((Command.ltrim key start stop).execute s).1 = .nil ↔ ⟨.lists, key⟩ ∉ opened) ∧
      (∀ key member,
        ((Command.sismember key member).execute s).1 = .nil ↔ ⟨.sets, key⟩ ∉ opened) ∧
      (∀ key member,
        ((Command.srem key member).execute s).1 = .nil ↔ ⟨.sets, key⟩ ∉ opened) ∧
      (∀ keys,
        ((Command.sinter keys).execute s).1 = .nil ↔ ∃ key ∈ keys, ⟨.sets, key⟩ ∉ opened) ∧
      (∀ key fields,
        ((Command.hmget key fields).execute s).1 = .nil ↔ ⟨.hashes, key⟩ ∉ opened) ∧
      ∀ later cell, s.Knows cell → (s.perform later).2.Knows cell := by
  intro s opened
  have hUnknown : ∀ n, n ≠ .strings → ∀ key, (s.table n)[key]? = none ↔ ⟨n, key⟩ ∉ opened := by
    intro n hSpace key
    rw [← not_knows_iff hSpace, knows_perform_empty]
  refine ⟨?lrange, ?ltrim, ?sismember, ?srem, ?sinter, ?hmget, ?later⟩
  case lrange =>
    intro key start stop
    rw [Command.execute, Reply.ofList?_eq_nil_iff, Lists.range?, Option.map_eq_none_iff]
    exact hUnknown .lists nofun key
  case ltrim =>
    intro key start stop
    simp only [Command.execute, ite_eq_right_iff, reduceCtorEq, imp_false, Bool.not_eq_true,
      Lists.trim_eq_false_iff]
    exact hUnknown .lists nofun key
  case sismember =>
    intro key member
    rw [Command.execute, Reply.ofNat?_eq_nil_iff, Sets.count?, Option.map_eq_none_iff]
    exact hUnknown .sets nofun key
  case srem =>
    intro key member
    simp only [Command.execute, Reply.ofNat?_eq_nil_iff, Sets.remove_eq_none_iff]
    exact hUnknown .sets nofun key
  case sinter =>
    intro keys
    rw [Command.execute, Reply.ofList?_eq_nil_iff, Sets.inter?_eq_none_iff]
    exact exists_congr fun key => and_congr_right fun _ => hUnknown .sets nofun key
  case hmget =>
    intro key fields
    rw [Command.execute, Reply.ofList?_eq_nil_iff, Hashes.values?, Option.map_eq_none_iff]
    exact hUnknown .hashes nofun key
  case later =>
    intro later cell hKnown
    exact (s.opens_perform later cell).mpr (.inl hKnown)

/-- A list that was emptied is known and empty; one that a refused move was to go to is unknown. -/
theorem emptied_list_known :
    let s := ((empty default).perform [.rpush "k" "a", .lmove "k" "j" "LEFT" "UP"]).2
    s.Knows ⟨.lists, "k"⟩ ∧ (s.perform [.lpop "k"]).2.Knows ⟨.lists, "k"⟩ ∧
      ((Command.lrange "k" 0 9).execute (s.perform [.lpop "k"]).2).1 = .list [] ∧
      ((Command.lrange "j" 0 9).execute s).1 = .nil := by
  intro s
  have hKnown : s.Knows ⟨.lists, "k"⟩ := (knows_perform_empty _ _ _).mpr (by decide)
  obtain ⟨hRange, -, -, -, -, -, hLater⟩ :=
    nil_iff_not_opened default [.rpush "k" "a", .lmove "k" "j" "LEFT" "UP"]
  exact ⟨hKnown, hLater _ _ hKnown, rfl, (hRange "j" 0 9).mpr (by decide)⟩

end Store
end Keyspace
