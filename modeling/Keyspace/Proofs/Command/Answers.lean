import Keyspace.Command.Execution
import Keyspace.Proofs.Score.Text
import Keyspace.Proofs.Store.Holding

/-! # Answers: each verb has one kind of reply besides `nil`, and every text in it is held -/
namespace Keyspace
open Text
set_option autoImplicit false

inductive Reply.Kind where
  | ok
  | pong
  | integer
  | score
  | value
  | list
  | pairs
  deriving DecidableEq, Repr

namespace Reply

def kind? : Reply → Option Kind
  | ok => some .ok
  | pong => some .pong
  | integer _ => some .integer
  | score _ => some .score
  | value _ => some .value
  | list _ => some .list
  | pairs _ => some .pairs
  | nil | error _ => none

/-- The reply says that there is nothing, or is of a kind. -/
def Answers (kind : Kind) (r : Reply) : Prop := r = nil ∨ r.kind? = some kind

theorem answers_ofValue? (found : Option String) : (ofValue? found).Answers .value := by
  cases found with
  | none => exact .inl rfl
  | some value => exact .inr rfl

theorem answers_ofInt64? (found : Option Int64) : (ofInt64? found).Answers .integer := by
  cases found with
  | none => exact .inl rfl
  | some n => exact .inr rfl

theorem answers_ofNat? (found : Option Nat) : (ofNat? found).Answers .integer := by
  cases found with
  | none => exact .inl rfl
  | some n => exact .inr rfl

theorem answers_ofList? (found : Option (List String)) : (ofList? found).Answers .list := by
  cases found with
  | none => exact .inl rfl
  | some values => exact .inr rfl

/-- The texts that a reply gives, apart from numbers and messages. -/
def texts : Reply → List String
  | value text => [text]
  | list values => values
  | pairs entries => entries.map Prod.fst
  | _ => []

/-- What holds of words, and of a text with a score behind it, holds of the lines of a reply. -/
theorem forall_mem_lines {r : Reply} {kind : Kind} {holds : String → Prop} (hKind : r.Answers kind)
    (hWord : ∀ word, IsWord word → holds word)
    (hScored : ∀ (text : String) (s : Score), holds text → holds (text ++ " " ++ s.text))
    (hTexts : ∀ text ∈ r.texts, holds text) : ∀ line ∈ r.lines, holds line := by
  cases r with
  | ok | pong | nil => exact List.forall_mem_singleton.mpr (hWord _ (by decide))
  | integer n => exact List.forall_mem_singleton.mpr (hWord _ (isWord_intText n))
  | score s => exact List.forall_mem_singleton.mpr (hWord _ (Score.isWord_text s))
  | value text => exact hTexts
  | list values => exact List.forall_mem_cons.mpr ⟨hWord _ (isWord_natText _), hTexts⟩
  | pairs entries =>
    refine List.forall_mem_cons.mpr ⟨hWord _ (isWord_natText _), List.forall_mem_map.mpr ?_⟩
    rintro ⟨member, s⟩ hEntry
    exact hScored member s (hTexts member (List.mem_map_of_mem hEntry))
  | error message => rcases hKind with hNil | hKind <;> contradiction

theorem forall_mem_texts_ofValue? {holds : String → Prop} {found : Option String} :
    (∀ text ∈ (ofValue? found).texts, holds text) ↔ ∀ value, found = some value → holds value := by
  cases found <;> simp [ofValue?, texts]

theorem forall_mem_texts_ofList? {holds : String → Prop} {found : Option (List String)} :
    (∀ text ∈ (ofList? found).texts, holds text) ↔
      ∀ values, found = some values → ∀ value ∈ values, holds value := by
  cases found <;> simp [ofList?, texts]

theorem texts_ofInt64? (found : Option Int64) : (ofInt64? found).texts = [] := by
  cases found <;> rfl

theorem texts_ofNat? (found : Option Nat) : (ofNat? found).texts = [] := by
  cases found <;> rfl

end Reply

def Verb.replyKind : Verb → Reply.Kind
  | ping => .pong
  | set | ltrim => .ok
  | zscore => .score
  | get | lpop | rpop | lmove | hget => .value
  | lrange | sinter | hmget => .list
  | zrange | zquery => .pairs
  | _ => .integer

theorem Verb.repliesInLines_eq (v : Verb) :
    v.repliesInLines = (v.replyKind == .list || v.replyKind == .pairs) := by
  cases v <;> rfl

namespace Command

theorem execute_answers (c : Command) (s : Store) : (c.execute s).1.Answers c.verb.replyKind := by
  cases c with
  | ping | zadd | zrem | zrange | zquery | zrangedel | zcard | set | del | lpush | rpush | llen
  | sadd | scard | hset => exact .inr rfl
  | get | lpop | rpop | lmove | hget => exact Reply.answers_ofValue? _
  | incrby | hincrby => exact Reply.answers_ofInt64? _
  | srem | sismember => exact Reply.answers_ofNat? _
  | lrange | sinter | hmget => exact Reply.answers_ofList? _
  | zscore | ltrim =>
    simp only [execute]
    split
    · exact .inr rfl
    · exact .inl rfl

theorem execute_texts (c : Command) {s : Store} (h : s.Sound) :
    ∀ text ∈ (c.execute s).1.texts, s.Holds text := by
  cases c with
  | ping | zadd | zrem | zrangedel | zcard | set | del | lpush | rpush | llen | sadd | scard
  | hset => exact nofun
  | incrby | hincrby =>
    simp only [execute, Reply.texts_ofInt64?]
    exact nofun
  | srem | sismember =>
    simp only [execute, Reply.texts_ofNat?]
    exact nofun
  | zscore | ltrim =>
    simp only [execute]
    split <;> exact nofun
  | zrange => exact List.forall_mem_map.mpr h.holds_of_range
  | zquery => exact List.forall_mem_map.mpr h.holds_of_query
  | get => exact Reply.forall_mem_texts_ofValue?.mpr fun _ => .string
  | lpop | rpop => exact Reply.forall_mem_texts_ofValue?.mpr fun _ => Store.holds_of_popped
  | lmove => exact Reply.forall_mem_texts_ofValue?.mpr fun _ => Store.holds_of_moved
  | hget => exact Reply.forall_mem_texts_ofValue?.mpr fun _ => Store.holds_of_value?
  | lrange => exact Reply.forall_mem_texts_ofList?.mpr fun _ => Store.holds_of_range?
  | sinter => exact Reply.forall_mem_texts_ofList?.mpr fun _ => Store.holds_of_inter?
  | hmget => exact Reply.forall_mem_texts_ofList?.mpr fun _ => Store.holds_of_values?

end Command
end Keyspace
