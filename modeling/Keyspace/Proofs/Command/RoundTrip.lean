import Keyspace.Command.Request
import Keyspace.Proofs.Score.Text
import Keyspace.Proofs.Text.Words

/-! # Commands and their lines: a command reads back just where its arguments can stand in a line -/
namespace Keyspace
open Text
set_option autoImplicit false

namespace Command

/-- The arguments that stand in the line as they are. -/
def texts : Command → List String
  | ping => []
  | zadd key _ member => [key, member]
  | zrem key member | zscore key member | sadd key member | srem key member
  | sismember key member => [key, member]
  | zrange key .. | zrangedel key .. => [key]
  | zquery key _ minMember _ maxMember .. => [key, minMember, maxMember]
  | zcard key | get key | del key | lpop key | rpop key | llen key | scard key => [key]
  | set key value | lpush key value | rpush key value => [key, value]
  | incrby key _ => [key]
  | lmove source destination fromEnd toEnd => [source, destination, fromEnd, toEnd]
  | lrange key .. | ltrim key .. => [key]
  | sinter keys => keys
  | hset key pairs => key :: pairs.flatMap fun (field, value) => [field, value]
  | hget key field => [key, field]
  | hmget key fields => key :: fields
  | hincrby key field _ => [key, field]

def scores : Command → List Score
  | zadd _ score _ => [score]
  | zrange _ minScore maxScore .. | zrangedel _ minScore maxScore .. => [minScore, maxScore]
  | zquery _ minScore _ maxScore .. => [minScore, maxScore]
  | _ => []

def counts : Command → List Nat
  | zrange _ _ _ offset count | zrangedel _ _ _ offset count => [offset, count]
  | zquery _ _ _ _ _ offset count => [offset, count]
  | _ => []

/-- What can be repeated is there at least once. -/
def NotBare : Command → Prop
  | sinter keys => keys ≠ []
  | hset _ pairs => pairs ≠ []
  | hmget _ fields => fields ≠ []
  | _ => True

/-- What a line can carry. -/
structure WellFormed (c : Command) : Prop where
  texts : ∀ word ∈ c.texts, IsWord word
  scores : ∀ s ∈ c.scores, s ≠ .nan
  counts : ∀ n ∈ c.counts, n ≤ 2 ^ 63 - 1
  notBare : c.NotBare

theorem WellFormed.of_texts {c : Command} (hTexts : ∀ word ∈ c.texts, IsWord word)
    (hScores : c.scores = []) (hCounts : c.counts = []) (hNotBare : c.NotBare) : c.WellFormed where
  texts := hTexts
  scores := by simp [hScores]
  counts := by simp [hCounts]
  notBare := hNotBare

theorem WellFormed.isWord_of_mem_args {c : Command} (h : c.WellFormed) :
    ∀ word ∈ c.args, IsWord word := by
  have hTexts := h.texts
  cases c <;>
    simpa only [args, Command.texts, List.forall_mem_cons, isWord_natText, isWord_intText,
      Score.isWord_text, true_and] using hTexts

theorem isWord_verb (v : Verb) : IsWord v.name := by
  cases v <;> decide

end Command

namespace Request

theorem readVerb_name (v : Verb) : readVerb v.name = .ok v := by
  cases v <;> rfl

theorem readScore_text {s : Score} (h : s ≠ .nan) : readScore s.text = .ok s := by
  cases s with
  | nan => exact absurd rfl h
  | number negative rank => rw [readScore, Score.read_text_number]

theorem readInteger_intText (i : Int64) : readInteger (intText i.toInt) = .ok i := by
  rw [readInteger, readInt64_intText]

theorem readCount_natText {n : Nat} (h : n ≤ 2 ^ 63 - 1) :
    Request.readCount (natText n) = .ok n := by
  have hLt : n < 2 ^ 63 := by omega
  rw [Request.readCount, readInteger, readInt64_natText hLt]
  exact congrArg Except.ok (Int64.toNatClampNeg_ofNat_of_lt hLt)

theorem pairUp_flatMap (pairs : List (String × String)) :
    pairUp (pairs.flatMap fun (field, value) => [field, value]) = some pairs := by
  induction pairs with
  | nil => rfl
  | cons pair rest ih =>
    rw [List.flatMap_cons]
    exact congrArg (Option.map _) ih

theorem ofWords_args {c : Command} (h : c.WellFormed) : ofWords c.verb c.args = .ok c := by
  have hScores := h.scores
  have hCounts := h.counts
  have hNotBare := h.notBare
  cases c with
  | ping | zrem | zscore | zcard | set | get | del | lpush | rpush | lpop | rpop | llen | lmove
  | sadd | srem | sismember | scard | hget => rfl
  | zadd key score member =>
    simp only [Command.scores, List.forall_mem_cons] at hScores
    simp only [ofWords, Command.verb, Command.args, readScore_text hScores.1]
    rfl
  | zrange key minScore maxScore offset count | zrangedel key minScore maxScore offset count =>
    simp only [Command.scores, Command.counts, List.forall_mem_cons] at hScores hCounts
    simp only [ofWords, Command.verb, Command.args, readScore_text hScores.1,
      readScore_text hScores.2.1, readCount_natText hCounts.1, readCount_natText hCounts.2.1]
    rfl
  | zquery key minScore minMember maxScore maxMember offset count =>
    simp only [Command.scores, Command.counts, List.forall_mem_cons] at hScores hCounts
    simp only [ofWords, Command.verb, Command.args, readScore_text hScores.1,
      readScore_text hScores.2.1, readCount_natText hCounts.1, readCount_natText hCounts.2.1]
    rfl
  | incrby | lrange | ltrim | hincrby =>
    simp only [ofWords, Command.verb, Command.args, readInteger_intText]
    rfl
  | sinter keys =>
    obtain ⟨first, rest, rfl⟩ := List.exists_cons_of_ne_nil hNotBare
    rfl
  | hset key pairs =>
    obtain ⟨⟨field, value⟩, rest, rfl⟩ := List.exists_cons_of_ne_nil hNotBare
    simp only [ofWords, Command.verb, Command.args, List.flatMap_cons, List.cons_append,
      List.nil_append, pairUp_flatMap]
  | hmget key fields =>
    obtain ⟨first, rest, rfl⟩ := List.exists_cons_of_ne_nil hNotBare
    rfl

theorem read_of_wellFormed {c : Command} (h : c.WellFormed) : Request.read c.line = .ok c := by
  have hWords : words c.line = c.verb.name :: c.args :=
    words_line (List.forall_mem_cons.mpr ⟨Command.isWord_verb c.verb, h.isWord_of_mem_args⟩)
  rw [Request.read, hWords]
  simp only [readVerb_name]
  exact ofWords_args h

theorem ne_nan_of_readScore {word : String} {s : Score} (h : readScore word = .ok s) :
    s ≠ .nan := by
  rw [readScore] at h
  split at h <;> cases h
  exact Score.noConfusion

theorem le_of_readCount {word : String} {n : Nat} (h : Request.readCount word = .ok n) :
    n ≤ 2 ^ 63 - 1 := by
  rw [Request.readCount] at h
  cases hRead : readInteger word with
  | error e => rw [hRead] at h; cases h
  | ok i =>
    rw [hRead] at h
    cases h
    exact Nat.le_sub_one_of_lt i.toNatClampNeg_lt

theorem flatMap_of_pairUp {ws : List String} {pairs : List (String × String)}
    (h : pairUp ws = some pairs) : pairs.flatMap (fun (field, value) => [field, value]) = ws := by
  induction ws using pairUp.induct generalizing pairs with
  | case1 => cases h; rfl
  | case2 word => cases h
  | case3 field value rest ih =>
    obtain ⟨others, hOthers, rfl⟩ := Option.map_eq_some_iff.mp h
    rw [List.flatMap_cons, ih hOthers]
    rfl

theorem bind_eq_ok {α β : Type} {x : Except Error α} {f : α → Except Error β} {b : β}
    (h : x >>= f = .ok b) : ∃ a, x = .ok a ∧ f a = .ok b := by
  cases x with
  | error e => cases h
  | ok a => exact ⟨a, rfl, h⟩

theorem verb_and_wellFormed_of_ofWords {verb : Verb} {ws : List String} {c : Command}
    (hWords : ∀ word ∈ ws, IsWord word) (h : ofWords verb ws = .ok c) :
    c.verb = verb ∧ c.WellFormed := by
  cases verb with
  | ping | zrem | zscore | zcard | set | get | del | lpush | rpush | lpop | rpop | llen | lmove
  | sadd | srem | sismember | scard | hget =>
    simp only [ofWords] at h
    split at h <;> cases h
    exact ⟨rfl, .of_texts hWords rfl rfl trivial⟩
  | zadd =>
    simp only [ofWords] at h
    split at h
    · rename_i key score member
      obtain ⟨s, hScore, hCommand⟩ := bind_eq_ok h
      cases hCommand
      simp only [List.forall_mem_cons] at hWords
      refine ⟨rfl, ?_, ?_, by simp [Command.counts], trivial⟩
      · simpa [Command.texts] using ⟨hWords.1, hWords.2.2.1⟩
      · simpa [Command.scores] using ne_nan_of_readScore hScore
    · cases h
  | zrange | zrangedel =>
    simp only [ofWords] at h
    split at h
    · rename_i key minScore maxScore offset count
      obtain ⟨low, hLow, h⟩ := bind_eq_ok h
      obtain ⟨high, hHigh, h⟩ := bind_eq_ok h
      obtain ⟨skipped, hSkipped, h⟩ := bind_eq_ok h
      obtain ⟨taken, hTaken, hCommand⟩ := bind_eq_ok h
      cases hCommand
      simp only [List.forall_mem_cons] at hWords
      refine ⟨rfl, ?_, ?_, ?_, trivial⟩
      · simpa [Command.texts] using hWords.1
      · simpa [Command.scores] using ⟨ne_nan_of_readScore hLow, ne_nan_of_readScore hHigh⟩
      · simpa [Command.counts] using ⟨le_of_readCount hSkipped, le_of_readCount hTaken⟩
    · cases h
  | zquery =>
    simp only [ofWords] at h
    split at h
    · rename_i key minScore minMember maxScore maxMember offset count
      obtain ⟨low, hLow, h⟩ := bind_eq_ok h
      obtain ⟨high, hHigh, h⟩ := bind_eq_ok h
      obtain ⟨skipped, hSkipped, h⟩ := bind_eq_ok h
      obtain ⟨taken, hTaken, hCommand⟩ := bind_eq_ok h
      cases hCommand
      simp only [List.forall_mem_cons] at hWords
      refine ⟨rfl, ?_, ?_, ?_, trivial⟩
      · simpa [Command.texts] using ⟨hWords.1, hWords.2.2.1, hWords.2.2.2.2.1⟩
      · simpa [Command.scores] using ⟨ne_nan_of_readScore hLow, ne_nan_of_readScore hHigh⟩
      · simpa [Command.counts] using ⟨le_of_readCount hSkipped, le_of_readCount hTaken⟩
    · cases h
  | incrby =>
    simp only [ofWords] at h
    split at h
    · obtain ⟨amount, -, hCommand⟩ := bind_eq_ok h
      cases hCommand
      simp only [List.forall_mem_cons] at hWords
      refine ⟨rfl, .of_texts ?_ rfl rfl trivial⟩
      simpa [Command.texts] using hWords.1
    · cases h
  | lrange | ltrim =>
    simp only [ofWords] at h
    split at h
    · obtain ⟨start, -, h⟩ := bind_eq_ok h
      obtain ⟨stop, -, hCommand⟩ := bind_eq_ok h
      cases hCommand
      simp only [List.forall_mem_cons] at hWords
      refine ⟨rfl, .of_texts ?_ rfl rfl trivial⟩
      simpa [Command.texts] using hWords.1
    · cases h
  | hincrby =>
    simp only [ofWords] at h
    split at h
    · obtain ⟨amount, -, hCommand⟩ := bind_eq_ok h
      cases hCommand
      simp only [List.forall_mem_cons] at hWords
      refine ⟨rfl, .of_texts ?_ rfl rfl trivial⟩
      simpa [Command.texts] using ⟨hWords.1, hWords.2.1⟩
    · cases h
  | sinter =>
    simp only [ofWords] at h
    split at h <;> cases h
    rename_i hNe
    exact ⟨rfl, .of_texts hWords rfl rfl hNe⟩
  | hset =>
    simp only [ofWords] at h
    split at h
    · rename_i key field value rest
      split at h
      · rename_i pairs hPairs
        cases h
        refine ⟨rfl, .of_texts ?_ rfl rfl (List.cons_ne_nil _ _)⟩
        rw [Command.texts, List.flatMap_cons, flatMap_of_pairUp hPairs]
        exact hWords
      · cases h
    · cases h
  | hmget =>
    simp only [ofWords] at h
    split at h <;> cases h
    exact ⟨rfl, .of_texts hWords rfl rfl (List.cons_ne_nil _ _)⟩

theorem wellFormed_of_read {line : String} {c : Command} (h : Request.read line = .ok c) :
    c.WellFormed := by
  rw [Request.read] at h
  split at h
  · cases h
  · rename_i word args hWords
    obtain ⟨verb, -, hCommand⟩ := bind_eq_ok h
    refine (verb_and_wellFormed_of_ofWords ?_ hCommand).2
    intro other hOther
    exact isWord_of_mem_words (hWords ▸ List.mem_cons_of_mem word hOther)

/-- A command reads back from its line just if it is well formed, and every line that is read gives
such a command. -/
theorem read_line_iff :
    (∀ c : Command, Request.read c.line = .ok c ↔ c.WellFormed) ∧
      ∀ line c, Request.read line = .ok c → c.WellFormed ∧ Request.read c.line = .ok c := by
  constructor
  · intro c
    exact ⟨wellFormed_of_read, read_of_wellFormed⟩
  · intro line c h
    have hWellFormed := wellFormed_of_read h
    exact ⟨hWellFormed, read_of_wellFormed hWellFormed⟩

end Request
end Keyspace
