import Keyspace.Service.Client
import Keyspace.Proofs.Command.Replies

/-! # Reply framing: a client reads the reply to its request, and leaves what follows -/
namespace Keyspace
open Text
set_option autoImplicit false

namespace Client

theorem verbOf_of_read {line : String} {c : Command} (h : Request.read line = .ok c) :
    verbOf line = some c.verb := by
  rw [Request.read] at h
  split at h
  · cases h
  · rename_i word args hWords
    obtain ⟨verb, hVerb, hCommand⟩ := Request.bind_eq_ok h
    have hArgs : ∀ other ∈ args, IsWord other := fun other hOther =>
      isWord_of_mem_words (hWords ▸ List.mem_cons_of_mem word hOther)
    rw [verbOf, hWords, (Request.verb_and_wellFormed_of_ofWords hArgs hCommand).1]
    rw [Request.readVerb] at hVerb
    split at hVerb
    · rename_i found hFound
      cases hVerb
      exact hFound
    · cases hVerb

end Client

namespace Request

variable {s : Store}

theorem execute_worded (h : s.Worded) (line : String) : (Request.execute line s).2.Worded := by
  rw [Request.execute]
  split
  · rename_i c hRead
    exact Command.execute_worded h (wellFormed_of_read hRead).texts
  · exact h

theorem execute_lined (h : s.Worded) (line : String) : (Request.execute line s).1.Lined := by
  rw [Request.execute]
  split
  · exact Command.execute_lined h
  · rename_i e hRead
    exact Reply.lined_error (unbroken_of_read hRead)

theorem execute_fits (line : String) (s : Store) :
    (Request.execute line s).1.Fits (Client.verbOf line) := by
  rw [Request.execute]
  split
  · rename_i c hRead
    rw [Client.verbOf_of_read hRead]
    exact Command.execute_fits c s
  · trivial

end Request

def Store.replyTo (s : Store) (line : String) : Reply := (Request.execute line s).1

def Store.ofRequests (chance : Chance) (lines : List String) : Store :=
  lines.foldl (fun s line => (Request.execute line s).2) (Store.empty chance)

theorem Store.worded_foldl {s : Store} (h : s.Worded) (lines : List String) :
    (lines.foldl (fun s line => (Request.execute line s).2) s).Worded := by
  induction lines generalizing s with
  | nil => exact h
  | cons line rest ih => exact ih (Request.execute_worded h line)

theorem Store.worded_ofRequests (chance : Chance) (lines : List String) :
    (Store.ofRequests chance lines).Worded :=
  Store.worded_foldl (Store.worded_empty chance) lines

namespace LineReader

theorem intercalate_newline (first : String) (body : List String) :
    "\n".intercalate (first :: body) ++ "\n" = String.join ((first :: body).map (· ++ "\n")) := by
  induction body generalizing first with
  | nil => simp
  | cons next rest ih =>
    rw [String.intercalate_cons_cons, String.append_assoc, ih]
    exact String.join_cons.symm

theorem utf8_join (lines : List String) :
    utf8 (String.join (lines.map (· ++ "\n"))) = lineBytes lines := by
  induction lines with
  | nil => rfl
  | cons line rest ih =>
    rw [List.map_cons, String.join_cons, utf8_append, utf8_append, ih, utf8_newline]
    rfl

theorem Pending.readReply_text {r : LineReader} {reply : Reply} {verb : Option Verb} {rest : Bytes}
    (h : r.Pending (utf8 reply.text ++ rest)) (hLined : reply.Lined) (hVerb : reply.Fits verb)
    (hCount : reply.lines.length < UInt64.size)
    (hFits : ∀ line ∈ reply.lines, (utf8 line).length ≤ r.limit.toNat)
    (hLimit : r.limit.toNat + 1 < UInt64.size) :
    ∃ text next, r.readReply verb = (.ok text, next) ∧ text ++ "\n" = reply.text ∧
      next.Pending rest := by
  obtain ⟨first, body, hLines, hBody⟩ := Reply.bodyLength_lines hVerb hCount
  rw [Reply.Lined, hLines] at hLined
  rw [hLines] at hFits
  rw [Reply.text, hLines, utf8_join] at h
  obtain ⟨next, hRead, hPending⟩ := h.readReply hLined hFits hLimit hBody
  refine ⟨_, next, hRead, ?_, hPending⟩
  rw [intercalate_newline, Reply.text, hLines]

/-- With the greatest limit no reply is read that is still to arrive. -/
theorem exists_pending_unread (bytes : Bytes) (verb : Option Verb) :
    ∃ r : LineReader, r.limit = -1 ∧ r.Pending bytes ∧ (r.readReply verb).1 = .panic := by
  refine ⟨ofSource (.ofBytes bytes true) (-1), rfl, pending_ofBytes bytes true (-1), ?_⟩
  rw [readReply_of_greatest]

/-- Whatever was requested, the store holds words and numbers; and the reply to one more request
is read to its end and no further if its lines fit, just where the limit leaves room for the
threshold, which is one more. A reply has fewer lines than there are numbers of 64 bits. -/
theorem readReply_replyTo (chance : Chance) (lines : List String) :
    (Store.ofRequests chance lines).Worded ∧
      (∀ (key : String) (l : SkipList),
        (Store.ofRequests chance lines).sortedSets[key]? = some l →
        ∀ entry ∈ l.toList, IsWord entry.1 ∧ entry.2 ≠ .nan) ∧
      ∀ (line : String) (rest : Bytes) (limit : UInt64),
        ((Store.ofRequests chance lines).replyTo line).lines.length < UInt64.size →
        (∀ part ∈ ((Store.ofRequests chance lines).replyTo line).lines,
          (utf8 part).length ≤ limit.toNat) →
        ((∀ r : LineReader, r.limit = limit →
            r.Pending (utf8 ((Store.ofRequests chance lines).replyTo line).text ++ rest) →
            ∃ text next, r.readReply (Client.verbOf line) = (.ok text, next) ∧
              text ++ "\n" = ((Store.ofRequests chance lines).replyTo line).text ∧
              next.Pending rest) ↔
          limit.toNat + 1 < UInt64.size) := by
  have hWorded := Store.worded_ofRequests chance lines
  refine ⟨hWorded, fun key l hList => (hWorded.sortedSets key l hList).2.toList, ?_⟩
  intro line rest limit hCount hFits
  constructor
  · intro hRead
    by_contra hLimit
    have hGreatest : limit = -1 := by
      have hLt := limit.toNat_lt
      apply UInt64.toNat_inj.mp
      have hMinus : (-1 : UInt64).toNat = UInt64.size - 1 := rfl
      simp only [UInt64.size] at *
      omega
    obtain ⟨r, hSame, hPending, hPanic⟩ := exists_pending_unread
      (utf8 ((Store.ofRequests chance lines).replyTo line).text ++ rest) (Client.verbOf line)
    obtain ⟨text, next, hText, -⟩ := hRead r (hSame.trans hGreatest.symm) hPending
    rw [hText] at hPanic
    cases hPanic
  · intro hLimit r hSame hPending
    have hLined : ((Store.ofRequests chance lines).replyTo line).Lined :=
      Request.execute_lined hWorded line
    have hVerb : ((Store.ofRequests chance lines).replyTo line).Fits (Client.verbOf line) :=
      Request.execute_fits line _
    subst hSame
    exact hPending.readReply_text hLined hVerb hCount hFits hLimit

/-- A list of two values, whose reply arrives in pieces with the next reply right behind it. -/
theorem lrange_reply_read :
    ∃ text next,
      readReply ⟨⟨[.data (utf8 "2\na"), .fault ⟨.interrupted, ""⟩, .data (utf8 "\nb\nOK\n")], true⟩,
        [], 64⟩ (Client.verbOf "LRANGE k 0 9") = (.ok text, next) ∧
      text ++ "\n" =
        ((Store.ofRequests default ["LPUSH k b", "LPUSH k a"]).replyTo "LRANGE k 0 9").text ∧
      next.Pending (utf8 "OK\n") := by
  have hReply : (Store.ofRequests default ["LPUSH k b", "LPUSH k a"]).replyTo "LRANGE k 0 9" =
      .list ["a", "b"] := rfl
  have hRead := (readReply_replyTo default ["LPUSH k b", "LPUSH k a"]).2.2 "LRANGE k 0 9"
    (utf8 "OK\n") 64 (by rw [hReply]; decide) (by rw [hReply]; decide)
  exact hRead.mpr (by decide) _ rfl ⟨by rw [hReply]; rfl, by decide⟩

/-- The reply fits, it arrives whole but for its first byte, and nothing of it is read. -/
theorem pong_unread :
    ((Store.empty default).replyTo "PING").text = "PONG\n" ∧
      (∀ part ∈ ((Store.empty default).replyTo "PING").lines,
        (utf8 part).length ≤ (-1 : UInt64).toNat) ∧
      Pending ⟨⟨[.data (utf8 "P"), .data (utf8 "ONG\n")], true⟩, [], -1⟩ (utf8 "PONG\n") ∧
      (readReply ⟨⟨[.data (utf8 "P"), .data (utf8 "ONG\n")], true⟩, [], -1⟩
        (Client.verbOf "PING")).1 = .panic := by
  refine ⟨rfl, by decide, ⟨by decide, by decide⟩, ?_⟩
  exact congrArg Prod.fst (readReply_of_greatest _ _)

end LineReader
end Keyspace
