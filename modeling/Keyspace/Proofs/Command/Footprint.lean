import Keyspace.Proofs.Command.Run
import Keyspace.Proofs.Store.Confinement

/-! # Footprints: the cells that a command names, outside of which it neither looks nor writes -/
namespace Keyspace
set_option autoImplicit false

/-- The verbs that only ask. -/
def Verb.asks : Verb → Bool
  | ping | zscore | zrange | zquery | zcard | get | lrange | sismember | sinter | scard | hget
  | hmget => true
  | _ => false

namespace Command

def footprint : Command → List Cell
  | ping => []
  | zadd key .. | zrem key _ | zscore key _ | zrange key .. | zquery key .. | zrangedel key ..
  | zcard key => [⟨.sortedSets, key⟩]
  | set key _ | get key | del key | incrby key _ => [⟨.strings, key⟩]
  | lpush key _ | rpush key _ | lpop key | rpop key | llen key | lrange key .. | ltrim key .. =>
    [⟨.lists, key⟩]
  | lmove source destination _ _ => [⟨.lists, source⟩, ⟨.lists, destination⟩]
  | sadd key _ | srem key _ | sismember key _ | scard key => [⟨.sets, key⟩]
  | sinter keys => keys.map (Cell.mk .sets)
  | hset key _ | hget key _ | hmget key _ | hincrby key .. => [⟨.hashes, key⟩]

theorem execute_of_asks {c : Command} (h : c.verb.asks = true) (s : Store) :
    (c.execute s).2 = s := by
  cases c with
  | ping | zrange | zquery | zcard | get | lrange | sismember | sinter | scard | hget | hmget =>
    rfl
  | zscore =>
    rw [Command.execute]
    split <;> rfl
  | _ => cases h

theorem execute_sound (c : Command) {s : Store} (h : s.Sound) : (c.execute s).2.Sound := by
  cases c with
  | zadd key score member => exact SortedSets.Sound.add h _ key score member
  | zrem key member => exact SortedSets.Sound.remove h key member
  | zrangedel key minScore maxScore offset count =>
    exact SortedSets.Sound.removeRange h key minScore maxScore offset count
  | zscore =>
    rw [execute]
    split <;> exact h
  | _ => exact h

theorem answer_of_asks {c : Command} (hAsks : c.verb.asks = true) {s t : Store} (hs : s.Sound)
    (ht : t.Sound) (h : Agree Store.seen c.footprint s t) : (c.execute s).1 = (c.execute t).1 := by
  cases c with
  | ping => rfl
  | zscore key member =>
    rcases hs.alike ht (h _ List.mem_cons_self) with
      ⟨hNone, hMissing⟩ | ⟨l, m, hl, hm, -, -, hScores⟩
    · simp only [Command.execute, SortedSets.score?, hNone, hMissing, Option.bind_none]
    · simp only [Command.execute, SortedSets.score?, hl, hm, Option.bind_some, SkipList.score?,
        hScores]
      cases m.scores[member]? <;> rfl
  | zrange key minScore maxScore offset count =>
    rcases hs.alike ht (h _ List.mem_cons_self) with
      ⟨hNone, hMissing⟩ | ⟨l, m, hl, hm, hSound, hOther, hScores⟩
    · simp only [Command.execute, SortedSets.range, hNone, hMissing]
    · simp only [Command.execute, SortedSets.range, hl, hm, hSound.range_congr hOther hScores]
  | zquery key minScore minMember maxScore maxMember offset count =>
    rcases hs.alike ht (h _ List.mem_cons_self) with
      ⟨hNone, hMissing⟩ | ⟨l, m, hl, hm, hSound, hOther, hScores⟩
    · simp only [Command.execute, SortedSets.query, hNone, hMissing]
    · simp only [Command.execute, SortedSets.query, hl, hm, hSound.query_congr hOther hScores]
  | zcard key =>
    rcases hs.alike ht (h _ List.mem_cons_self) with
      ⟨hNone, hMissing⟩ | ⟨l, m, hl, hm, -, -, hScores⟩
    · simp only [Command.execute, SortedSets.card, hNone, hMissing]
    · simp only [Command.execute, SortedSets.card, hl, hm, SkipList.size, hScores]
  | get key =>
    have hKey : s.strings[key]? = t.strings[key]? :=
      Store.held_of_seen (n := .strings) (by decide) (h _ List.mem_cons_self)
    simp only [Command.execute, Strings.value?, hKey]
  | lrange key =>
    have hKey : s.lists[key]? = t.lists[key]? :=
      Store.held_of_seen (n := .lists) (by decide) (h _ List.mem_cons_self)
    simp only [Command.execute, Lists.range?, hKey]
  | sismember key | scard key =>
    have hKey : s.sets[key]? = t.sets[key]? :=
      Store.held_of_seen (n := .sets) (by decide) (h _ List.mem_cons_self)
    simp only [Command.execute, Sets.count?, Sets.card, hKey]
  | sinter keys =>
    have hKeys : Agree Table.look keys s.sets t.sets := fun key hKey =>
      Store.held_of_seen (n := .sets) (by decide) (h ⟨.sets, key⟩ (List.mem_map_of_mem hKey))
    exact congrArg Reply.ofList? (Sets.inter?_congr hKeys _ _)
  | hget key | hmget key =>
    have hKey : s.hashes[key]? = t.hashes[key]? :=
      Store.held_of_seen (n := .hashes) (by decide) (h _ List.mem_cons_self)
    simp only [Command.execute, Hashes.value?, Hashes.values?, hKey]
  | _ => cases hAsks

theorem confined (c : Command) :
    Confined Store.Sound Store.held Store.seen c.execute c.footprint := by
  by_cases hAsks : c.verb.asks = true
  · exact .of_read (execute_of_asks hAsks) fun s t => answer_of_asks hAsks
  · cases c with
    | zadd key score member =>
      exact SortedSets.confined_add key score member Reply.ofBool
    | zrem key member =>
      exact SortedSets.confined_remove key member Reply.ofBool
    | zrangedel key minScore maxScore offset count =>
      exact SortedSets.confined_removeRange key minScore maxScore offset count
        fun removed => Reply.integer removed
    | set key value =>
      exact Store.confined_withTable (n := .strings) (by decide) (Strings.confined_put key value)
        fun _ => Reply.ok
    | del key =>
      exact Store.confined_withTable (n := .strings) (by decide) (Strings.confined_remove key)
        Reply.ofBool
    | incrby key amount =>
      exact Store.confined_withTable (n := .strings) (by decide) (Strings.confined_add key amount)
        Reply.ofInt64?
    | lpush key value =>
      exact Store.confined_withTable (n := .lists) (by decide) (Lists.confined_push .left key value)
        fun length => Reply.integer length
    | rpush key value =>
      exact Store.confined_withTable (n := .lists) (by decide) (Lists.confined_push .right key value)
        fun length => Reply.integer length
    | lpop key =>
      exact Store.confined_withTable (n := .lists) (by decide) (Lists.confined_pop .left key)
        Reply.ofValue?
    | rpop key =>
      exact Store.confined_withTable (n := .lists) (by decide) (Lists.confined_pop .right key)
        Reply.ofValue?
    | llen key =>
      exact Store.confined_withTable (n := .lists) (by decide) (Lists.confined_length key)
        fun length => Reply.integer length
    | lmove source destination fromEnd toEnd =>
      exact Store.confined_withTable (n := .lists) nofun
        (Lists.confined_move source destination fromEnd toEnd) Reply.ofValue?
    | ltrim key start stop =>
      exact Store.confined_withTable (n := .lists) (by decide) (Lists.confined_trim key start stop)
        fun known => if known then Reply.ok else Reply.nil
    | sadd key member =>
      exact Store.confined_withTable (n := .sets) (by decide) (Sets.confined_add key member)
        fun added => Reply.integer added
    | srem key member =>
      exact Store.confined_withTable (n := .sets) (by decide) (Sets.confined_remove key member)
        Reply.ofNat?
    | hset key pairs =>
      exact Store.confined_withTable (n := .hashes) (by decide) (Hashes.confined_put key pairs)
        fun added => Reply.integer added
    | hincrby key field amount =>
      exact Store.confined_withTable (n := .hashes) (by decide) (Hashes.confined_add key field amount)
        Reply.ofInt64?
    | _ => exact absurd rfl hAsks

/-- A command changes nothing but the cells that it names, and nothing at all if it only asks; its
reply and what can be seen of its cells after it depend on what can be seen of these cells alone,
whatever is left to chance. So commands that share no cell may change places: each has the same
reply first and last, and they leave stores that look the same. -/
theorem execute_footprint (c : Command) :
    (∀ s, ∀ cell ∉ c.footprint, (c.execute s).2.held cell = s.held cell) ∧
      (c.verb.asks = true → ∀ s, (c.execute s).2 = s) ∧
      (∀ s t : Store, s.Sound → t.Sound → (∀ cell ∈ c.footprint, s.seen cell = t.seen cell) →
        (c.execute s).1 = (c.execute t).1 ∧
          ∀ cell ∈ c.footprint, (c.execute s).2.seen cell = (c.execute t).2.seen cell) ∧
      ∀ d : Command, c.footprint.Disjoint d.footprint → ∀ s t : Store, s.Sound → t.Sound →
        s.Same t →
        (c.execute s).1 = (c.execute (d.execute t).2).1 ∧
          (d.execute (c.execute s).2).1 = (d.execute t).1 ∧
          (d.execute (c.execute s).2).2.Same (c.execute (d.execute t).2).2 := by
  refine ⟨c.confined.frame, execute_of_asks, c.confined.depends, ?_⟩
  intro d hApart s t hs ht hSame
  exact c.confined.commute d.confined Store.shows_seen (fun _ => c.execute_sound)
    (fun _ => d.execute_sound) hApart hs ht hSame

theorem execute_same (c : Command) {s t : Store} (hs : s.Sound) (ht : t.Sound) (h : s.Same t) :
    (c.execute s).1 = (c.execute t).1 ∧ (c.execute s).2.Same (c.execute t).2 :=
  c.confined.same Store.shows_seen hs ht h

end Command

namespace Request

variable {s t : Store}

theorem execute_sound (line : String) (h : s.Sound) : (Request.execute line s).2.Sound := by
  rw [Request.execute]
  split
  · exact Command.execute_sound _ h
  · exact h

theorem execute_same (line : String) (hs : s.Sound) (ht : t.Sound) (h : s.Same t) :
    (Request.execute line s).1 = (Request.execute line t).1 ∧
      (Request.execute line s).2.Same (Request.execute line t).2 := by
  simp only [Request.execute]
  split
  · exact Command.execute_same _ hs ht h
  · exact ⟨rfl, h⟩

end Request

namespace Store

theorem perform_sound (commands : List Command) {s : Store} (h : s.Sound) :
    (s.perform commands).2.Sound := by
  induction commands generalizing s with
  | nil => exact h
  | cons c commands ih => exact ih (c.execute_sound h)

/-- No run tells of what was left to chance. -/
theorem perform_same (commands : List Command) {s t : Store} (hs : s.Sound) (ht : t.Sound)
    (h : s.Same t) :
    (s.perform commands).1 = (t.perform commands).1 ∧
      (s.perform commands).2.Same (t.perform commands).2 := by
  induction commands generalizing s t with
  | nil => exact ⟨rfl, h⟩
  | cons c commands ih =>
    obtain ⟨hReply, hNext⟩ := c.execute_same hs ht h
    obtain ⟨hReplies, hLast⟩ := ih (c.execute_sound hs) (c.execute_sound ht) hNext
    rw [perform_cons, perform_cons, hReply, hReplies]
    exact ⟨rfl, hLast⟩

theorem perform_empty_same (chance other : Chance) (commands : List Command) :
    ((empty chance).perform commands).1 = ((empty other).perform commands).1 ∧
      ((empty chance).perform commands).2.Same ((empty other).perform commands).2 :=
  perform_same commands (sound_empty chance) (sound_empty other) (same_empty chance other)

end Store

/-- A member is added while a value moves within the list of the same key, the one first on a flat
sorted set and last on one of two levels. -/
theorem Command.zadd_lmove_swap :
    ∃ s t : Store, s.Sound ∧ t.Sound ∧ s.Same t ∧
      s.sortedSets["k"]?.map SkipList.level = some 1 ∧
      t.sortedSets["k"]?.map SkipList.level = some 2 ∧
      (zadd "k" .infinity "b").footprint.Disjoint (lmove "k" "k" "LEFT" "RIGHT").footprint ∧
      ((lmove "k" "k" "LEFT" "RIGHT").execute ((zadd "k" .infinity "b").execute s).2).1 =
        .value "a" ∧
      ((lmove "k" "k" "LEFT" "RIGHT").execute ((zadd "k" .infinity "b").execute s).2).2.Same
        ((zadd "k" .infinity "b").execute ((lmove "k" "k" "LEFT" "RIGHT").execute t).2).2 := by
  let commands : List Command := [.zadd "k" .zero "a", .rpush "k" "a", .rpush "k" "b"]
  let tall : Chance := ⟨fun _ => { tosses := fun i => i = 0 }, default⟩
  have hSame := (Store.perform_empty_same default tall commands).2
  have hs := Store.perform_sound commands (Store.sound_empty default)
  have ht := Store.perform_sound commands (Store.sound_empty tall)
  have hApart : (zadd "k" .infinity "b").footprint.Disjoint
      (lmove "k" "k" "LEFT" "RIGHT").footprint := List.disjoint_left.mpr (by decide)
  obtain ⟨-, hReply, hLast⟩ := (execute_footprint _).2.2.2 _ hApart _ _ hs ht hSame
  exact ⟨_, _, hs, ht, hSame, rfl, rfl, hApart, hReply.trans rfl, hLast⟩

end Keyspace
