import Keyspace.Proofs.Command.Answers
import Keyspace.Proofs.Command.Grammar
import Keyspace.Proofs.Stream.Framing

/-! # Replies: what commands leave in the store and answer, and on how many lines -/
namespace Keyspace
open Text
set_option autoImplicit false

theorem Command.execute_worded {c : Command} {s : Store} (h : s.Worded)
    (hTexts : ∀ word ∈ c.texts, IsWord word) : (c.execute s).2.Worded := by
  cases c with
  | ping | zrange | zquery | zcard | get | lrange | sismember | sinter | scard | hget | hmget =>
    exact h
  | zscore key member =>
    rw [Command.execute]
    split <;> exact h
  | zadd key score member =>
    simp only [Command.texts, List.forall_mem_cons] at hTexts
    exact { h with sortedSets := h.sortedSets.add _ hTexts.1 hTexts.2.1 score }
  | zrem => exact { h with sortedSets := h.sortedSets.remove }
  | zrangedel key minScore maxScore offset count =>
    exact { h with sortedSets := h.sortedSets.removeRange minScore maxScore offset count }
  | set key value =>
    simp only [Command.texts, List.forall_mem_cons] at hTexts
    exact { h with strings := h.strings.insert ⟨hTexts.1, hTexts.2.1⟩ }
  | del key => exact { h with strings := h.strings.erase key }
  | incrby key amount =>
    simp only [Command.texts, List.forall_mem_cons] at hTexts
    exact { h with strings := h.strings.add hTexts.1 amount }
  | lpush key value | rpush key value =>
    simp only [Command.texts, List.forall_mem_cons] at hTexts
    exact { h with lists := h.lists.push _ hTexts.1 hTexts.2.1 }
  | lpop key | rpop key =>
    simp only [Command.texts, List.forall_mem_cons] at hTexts
    exact { h with lists := h.lists.pop _ hTexts.1 }
  | llen key =>
    simp only [Command.texts, List.forall_mem_cons] at hTexts
    exact { h with lists := h.lists.length hTexts.1 }
  | lmove source destination fromEnd toEnd =>
    simp only [Command.texts, List.forall_mem_cons] at hTexts
    exact { h with lists := h.lists.move hTexts.1 hTexts.2.1 fromEnd toEnd }
  | ltrim key start stop => exact { h with lists := h.lists.trim start stop }
  | sadd key member =>
    simp only [Command.texts, List.forall_mem_cons] at hTexts
    exact { h with sets := h.sets.add hTexts.1 hTexts.2.1 }
  | srem => exact { h with sets := h.sets.remove }
  | hset key pairs =>
    obtain ⟨hKey, hPairs⟩ := List.forall_mem_cons.mp hTexts
    refine { h with hashes := h.hashes.put hKey fun pair hPair => ?_ }
    refine ⟨hPairs pair.1 (List.mem_flatMap.mpr ⟨pair, hPair, by simp⟩), ?_⟩
    exact hPairs pair.2 (List.mem_flatMap.mpr ⟨pair, hPair, by simp⟩)
  | hincrby key field amount =>
    simp only [Command.texts, List.forall_mem_cons] at hTexts
    exact { h with hashes := h.hashes.add hTexts.2.1 amount }

namespace Reply

def Lined (r : Reply) : Prop := ∀ line ∈ r.lines, IsLine line

/-- The reply is in lines just for the verbs that are answered so, unless it says that there is
nothing, or that something is wrong. -/
def Fits (verb : Option Verb) : Reply → Prop
  | list _ | pairs _ => verb.any Verb.repliesInLines = true
  | nil | error _ => True
  | _ => verb.any Verb.repliesInLines = false

theorem Answers.lined {r : Reply} {kind : Kind} (h : r.Answers kind)
    (hTexts : ∀ text ∈ r.texts, IsWord text) : r.Lined := by
  refine forall_mem_lines h (fun _ hWord => hWord.isLine) (fun _ s hText => ?_)
    fun text hText => (hTexts text hText).isLine
  exact isLine_append (isLine_append hText (by decide)) (Score.isWord_text s).isLine.2

theorem lined_error {message : String} (h : Unbroken message) : (error message).Lined := by
  simp only [Lined, lines, List.forall_mem_singleton]
  exact isLine_append (by decide) h

theorem Answers.fits {r : Reply} {verb : Verb} (h : r.Answers verb.replyKind) :
    r.Fits (some verb) := by
  rcases h with rfl | hKind
  · trivial
  · cases r with
    | nil | error => trivial
    | ok | pong | integer | score | value | list | pairs =>
      have hLines := verb.repliesInLines_eq
      rw [← Option.some.inj hKind] at hLines
      exact hLines

end Reply

theorem Command.execute_lined {c : Command} {s : Store} (h : s.Worded) : (c.execute s).1.Lined :=
  (c.execute_answers s).lined fun text hText =>
    h.isWord_of_holds (c.execute_texts h.sound text hText)

theorem Command.execute_fits (c : Command) (s : Store) : (c.execute s).1.Fits (some c.verb) :=
  (c.execute_answers s).fits

theorem readCount_error (message : String) : readCount ("error: " ++ message) = none := by
  have hChars : ("error: " ++ message).toList = 'e' :: ("rror: ".toList ++ message.toList) := by
    rw [String.toList_append]
    rfl
  rw [readCount, hChars]
  rfl

/-- The first line of a reply announces as many lines as follow it. -/
theorem Reply.bodyLength_lines {r : Reply} {verb : Option Verb} (h : r.Fits verb)
    (hLength : r.lines.length < UInt64.size) :
    ∃ first body, r.lines = first :: body ∧ LineReader.bodyLength verb first = body.length := by
  cases r with
  | ok | pong | integer | score | value =>
    refine ⟨_, [], rfl, ?_⟩
    rw [LineReader.bodyLength, if_neg (Bool.eq_false_iff.mp h)]
    rfl
  | nil =>
    refine ⟨_, [], rfl, ?_⟩
    rw [LineReader.bodyLength]
    split <;> rfl
  | error message =>
    refine ⟨_, [], rfl, ?_⟩
    rw [LineReader.bodyLength, readCount_error]
    split <;> rfl
  | list values =>
    refine ⟨_, values, rfl, ?_⟩
    have hVerb : verb.any Verb.repliesInLines = true := h
    have hCount := readCount_natText (Nat.lt_of_succ_lt hLength)
    rw [LineReader.bodyLength, if_pos hVerb, hCount]
    rfl
  | pairs entries =>
    refine ⟨_, _, rfl, ?_⟩
    rw [Reply.lines, List.length_cons, List.length_map] at hLength
    have hVerb : verb.any Verb.repliesInLines = true := h
    have hCount := readCount_natText (Nat.lt_of_succ_lt hLength)
    rw [LineReader.bodyLength, if_pos hVerb, hCount, List.length_map]
    rfl

namespace Request

theorem unbroken_arityText (a : Arity) : Unbroken a.text := by
  cases a with
  | exactly count => exact (isWord_natText count).isLine.2
  | keys | keyAndPairs | keyAndFields => decide

theorem unbroken_wrongArity (verb : Verb) : Unbroken (Error.wrongArity verb).message := by
  apply Unbroken.append _ (by decide)
  apply Unbroken.append _ (unbroken_arityText verb.arity)
  apply Unbroken.append _ (by decide)
  exact Unbroken.append (by decide) (Command.isWord_verb verb).isLine.2

theorem unbroken_refusal {word : String} (h : IsWord word) (kind : Kind) :
    Unbroken (kind.refusal word).message := by
  cases kind <;> exact Unbroken.append (by decide) h.isLine.2

/-- A line is refused with a message on one line, since it is told by a word of the line at most. -/
theorem unbroken_of_read {line : String} {e : Error} (h : Request.read line = .error e) :
    Unbroken e.message := by
  have hDecodes : Decodes (words line) (.error e) := h ▸ decodes_read line
  have hWord : ∀ word ∈ words line, IsWord word := fun _ => isWord_of_mem_words
  generalize words line = ws at hDecodes hWord
  cases hDecodes with
  | empty => decide
  | unknown =>
    apply Unbroken.append _ (by decide)
    exact Unbroken.append (by decide) (hWord _ List.mem_cons_self).isLine.2
  | miscounted => exact unbroken_wrongArity _
  | misread _ _ hArg =>
    have hMem := List.fst_mem_of_mem_zipIdx hArg.mem.1
    exact unbroken_refusal (hWord _ (List.mem_cons_of_mem _ hMem)) _

end Request
end Keyspace
