import Keyspace.Service.Prompt
import Keyspace.Proofs.Service.Visit

/-! # Transcripts: what the prompt shows for an input, and what it has the server execute -/
namespace Keyspace.Prompt
open Text
set_option autoImplicit false

/-- The lines up to the first that quits, without the blanks at their ends. -/
def entries (lines : List String) : List String :=
  (lines.map trim).takeWhile (asciiLower · ≠ "quit")

/-- The lines that are executed. -/
def requests (lines : List String) : List String := (entries lines).filter (· ≠ "")

/-- The prompt before each line and at the end, and after a line that is not blank the reply that it
has in the store that the lines before it leave. -/
def transcript : List String → Store → String
  | [], _ => text
  | line :: entries, s =>
    if line = "" then text ++ transcript entries s
    else text ++ (Request.execute line s).1.text ++ transcript entries (Request.execute line s).2

/-- The bytes of these lines, each with a newline. -/
def sent (lines : List String) : Bytes := lines.flatMap fun line => utf8 (line ++ "\n")

theorem linesOf_utf8 (s : String) : linesOf (utf8 s) = (lines s).map utf8 := by
  have hLast : ∀ pieces : List String,
      (pieces.map utf8).getLast? = some [] ↔ pieces.getLast? = some "" := by
    intro pieces
    rw [List.getLast?_map, Option.map_eq_some_iff]
    constructor
    · rintro ⟨piece, hPiece, hNil⟩
      rw [hPiece, utf8_injective (hNil.trans rfl : utf8 piece = utf8 "")]
    · exact fun hPiece => ⟨"", hPiece, rfl⟩
  rw [linesOf, lines, splitOn_utf8]
  simp only [hLast]
  split
  · rw [List.map_dropLast]
  · rfl

section
variable {line : String} (rest : List String)

theorem entries_of_blank (h : trim line = "") : entries (line :: rest) = "" :: entries rest := by
  rw [entries, List.map_cons, h]
  exact List.takeWhile_cons_of_pos (by decide)

theorem entries_of_quit (h : asciiLower (trim line) = "quit") : entries (line :: rest) = [] :=
  List.takeWhile_cons_of_neg (by simp [h])

theorem entries_of_ne_quit (h : asciiLower (trim line) ≠ "quit") :
    entries (line :: rest) = trim line :: entries rest :=
  List.takeWhile_cons_of_pos (by simp [h])

theorem requests_of_blank (h : trim line = "") : requests (line :: rest) = requests rest := by
  rw [requests, entries_of_blank rest h]
  exact List.filter_cons_of_neg (by decide)

theorem requests_of_quit (h : asciiLower (trim line) = "quit") : requests (line :: rest) = [] := by
  rw [requests, entries_of_quit rest h]
  rfl

theorem requests_of_ne_quit (hBlank : trim line ≠ "") (h : asciiLower (trim line) ≠ "quit") :
    requests (line :: rest) = trim line :: requests rest := by
  rw [requests, entries_of_ne_quit rest h]
  exact List.filter_cons_of_pos (by simpa using hBlank)

end

variable {v : Visitor} {s : Server} {limit : UInt64} {line : String}

theorem turn_of_blank (h : trim line = "") (v : Visitor) (s : Server) :
    turn (utf8 line) v s = (.skip, v, s) := by
  rw [turn, ofUtf8?_utf8]
  exact if_pos h

theorem turn_of_quit (h : asciiLower (trim line) = "quit") (v : Visitor) (s : Server) :
    turn (utf8 line) v s = (.quit, v, s) := by
  have hNe : trim line ≠ "" := by
    intro hBlank
    rw [hBlank] at h
    exact absurd h (by decide)
  rw [turn, ofUtf8?_utf8]
  exact (if_neg hNe).trans (if_pos h)

theorem turn_of_reply {w : Visitor} {t : Server} {reply : String} (hBlank : trim line ≠ "")
    (hQuit : asciiLower (trim line) ≠ "quit")
    (hSend : v.send (trim line) s = (.ok reply, w, t)) :
    turn (utf8 line) v s = (.print reply, w, t) := by
  rw [turn, ofUtf8?_utf8]
  refine (if_neg hBlank).trans ((if_neg hQuit).trans ?_)
  rw [hSend]

theorem turn_of_error {w : Visitor} {t : Server} {e : Error} (hBlank : trim line ≠ "")
    (hQuit : asciiLower (trim line) ≠ "quit")
    (hSend : v.send (trim line) s = (.error e, w, t)) :
    turn (utf8 line) v s = (.fail e, w, t) := by
  rw [turn, ofUtf8?_utf8]
  refine (if_neg hBlank).trans ((if_neg hQuit).trans ?_)
  rw [hSend]

/-- A conversation over these lines prints the transcript, sends what is to be executed, leaves the
store that this leaves, and does not fail. -/
structure Follows (result : Outcome × Visitor × Server) (lines : List String) (v : Visitor)
    (s : Server) (limit : UInt64) : Prop where
  output : result.1.output = transcript (entries lines) s.store
  ending : result.1.ending = .ok ()
  written : result.2.1.client.sink.written = v.client.sink.written ++ sent (requests lines)
  store : result.2.2.store = (s.store.answer (requests lines)).2
  rests : result.2.1.Rests result.2.2 limit

namespace Follows

variable {lines : List String}

theorem nil (h : v.Rests s limit) : Follows (converse [] v s) [] v s limit :=
  ⟨rfl, rfl, (List.append_nil _).symm, rfl, h⟩

theorem blank (hBlank : trim line = "")
    (h : Follows (converse (lines.map utf8) v s) lines v s limit) :
    Follows (converse (utf8 line :: lines.map utf8) v s) (line :: lines) v s limit := by
  have hEntries := entries_of_blank lines hBlank
  have hRequests := requests_of_blank lines hBlank
  rw [converse, turn_of_blank hBlank]
  constructor
  case output => rw [hEntries, transcript, if_pos rfl, ← h.output]
  case ending => exact h.ending
  case written => rw [hRequests, ← h.written]
  case store => rw [hRequests, ← h.store]
  case rests => exact h.rests

theorem quit (hQuit : asciiLower (trim line) = "quit") (h : v.Rests s limit) :
    Follows (converse (utf8 line :: lines.map utf8) v s) (line :: lines) v s limit := by
  rw [converse, turn_of_quit hQuit]
  constructor
  case output => rw [entries_of_quit lines hQuit, transcript]
  case ending => rfl
  case written => rw [requests_of_quit lines hQuit, sent, List.flatMap_nil, List.append_nil]
  case store => rw [requests_of_quit lines hQuit, Store.answer]
  case rests => exact h

theorem reply {reply : String} {w : Visitor} {t : Server} (hBlank : trim line ≠ "")
    (hQuit : asciiLower (trim line) ≠ "quit") (hSend : v.send (trim line) s = (.ok reply, w, t))
    (hText : reply ++ "\n" = (Request.execute (trim line) s.store).1.text)
    (hLeft : t.store = (Request.execute (trim line) s.store).2)
    (hSent : w.client.sink.written = v.client.sink.written ++ utf8 (trim line ++ "\n"))
    (h : Follows (converse (lines.map utf8) w t) lines w t limit) :
    Follows (converse (utf8 line :: lines.map utf8) v s) (line :: lines) v s limit := by
  have hRequests := requests_of_ne_quit lines hBlank hQuit
  rw [converse, turn_of_reply hBlank hQuit hSend]
  constructor
  case output =>
    rw [entries_of_ne_quit lines hQuit, transcript, if_neg hBlank, ← hText, ← hLeft, ← h.output,
      ← String.append_assoc]
  case ending => exact h.ending
  case written =>
    rw [hRequests, sent, List.flatMap_cons, ← sent, ← List.append_assoc, ← hSent, ← h.written]
  case store => rw [hRequests, Store.answer_cons, ← hLeft, ← h.store]
  case rests => exact h.rests

end Follows

theorem follows_converse (h : v.Rests s limit) (hLimit : limit.toNat + 1 < UInt64.size)
    {lines : List String} (hLines : ∀ line ∈ lines, '\n' ∉ line.toList)
    (hRequests : ∀ request ∈ requests lines, (utf8 request).length ≤ limit.toNat)
    (hReplies : ∀ reply ∈ (s.store.answer (requests lines)).1, Dialogue.Fits reply) :
    Follows (converse (lines.map utf8) v s) lines v s limit := by
  -- client and server rest again after each line, with the store of the lines so far
  induction lines generalizing v s with
  | nil => exact .nil h
  | cons line lines ih =>
    obtain ⟨hLine, hLines⟩ := List.forall_mem_cons.mp hLines
    by_cases hBlank : trim line = ""
    · rw [requests_of_blank lines hBlank] at hRequests hReplies
      exact .blank hBlank (ih h hLines hRequests hReplies)
    · by_cases hQuit : asciiLower (trim line) = "quit"
      · exact .quit hQuit h
      · rw [requests_of_ne_quit lines hBlank hQuit] at hRequests hReplies
        rw [Store.answer_cons] at hReplies
        obtain ⟨hRequest, hRequests⟩ := List.forall_mem_cons.mp hRequests
        obtain ⟨hReply, hReplies⟩ := List.forall_mem_cons.mp hReplies
        obtain ⟨reply, w, t, hSend, hText, hLeft, hSent, hRests⟩ :=
          h.send (isFramed_trim hLine) (trimEnd_trim line) (isBlank_trim hBlank) hRequest hLimit
            hReply
        rw [← hLeft] at hReplies
        exact .reply hBlank hQuit hSend hText hLeft hSent (ih hRests hLines hRequests hReplies)

theorem run_eq {args : List String} (hArgs : requestWords args = []) (input : Bytes) (s : Server)
    {result : Outcome × Visitor × Server}
    (h : converse (linesOf input) (Visitor.connect s).1 (Visitor.connect s).2 = result) :
    run args input s = (result.1, result.2.1.leave result.2.2) := by
  rw [run]
  simp only [hArgs, h]

theorem transcript_same (entries : List String) {s t : Store} (hs : s.Sound) (ht : t.Sound)
    (h : s.Same t) : transcript entries s = transcript entries t := by
  induction entries generalizing s t with
  | nil => rfl
  | cons line entries ih =>
    obtain ⟨hReply, hNext⟩ := Request.execute_same line hs ht h
    have hRest := ih (Request.execute_sound line hs) (Request.execute_sound line ht) hNext
    rw [transcript, transcript, ih hs ht h, hReply, hRest]

theorem answer_same (lines : List String) {s t : Store} (hs : s.Sound) (ht : t.Sound)
    (h : s.Same t) :
    (s.answer lines).1 = (t.answer lines).1 ∧ (s.answer lines).2.Same (t.answer lines).2 := by
  induction lines generalizing s t with
  | nil => exact ⟨rfl, h⟩
  | cons line lines ih =>
    obtain ⟨hReply, hNext⟩ := Request.execute_same line hs ht h
    obtain ⟨hReplies, hLast⟩ :=
      ih (Request.execute_sound line hs) (Request.execute_sound line ht) hNext
    rw [Store.answer_cons, Store.answer_cons, hReply, hReplies]
    exact ⟨rfl, hLast⟩

/-- For a text typed in, the prompt prints the transcript and does not fail, and what is sent to the
server, and leaves its store to look as it does, are the lines that are not blank, up to the first
that quits; provided that these and the lines of the replies fit. What the server leaves to chance
makes no difference. -/
theorem run_of_text {config : Config} {chance : Chance} {server : Server}
    (hStart : Server.start config chance = .ok server)
    (hLimit : config.maxLineLength.toNat + 1 < UInt64.size) {args : List String}
    (hArgs : requestWords args = []) {input : Bytes} {typed : String}
    (hInput : ofUtf8? input = some typed) (other : Chance)
    (hRequests : ∀ request ∈ requests (lines typed),
      (utf8 request).length ≤ config.maxLineLength.toNat)
    (hReplies : ∀ reply ∈ ((Store.empty other).answer (requests (lines typed))).1,
      Dialogue.Fits reply) :
    (run args input server).1.output = transcript (entries (lines typed)) (.empty other) ∧
      (run args input server).1.exitCode = 0 ∧ (run args input server).1.errorOutput = "" ∧
      (converse (linesOf input) (Visitor.connect server).1
        (Visitor.connect server).2).2.1.client.sink.written = sent (requests (lines typed)) ∧
      (run args input server).2.store.Same
        ((Store.empty other).answer (requests (lines typed))).2 := by
  obtain ⟨hRests, hEmpty, hUnsent⟩ := Visitor.rests_connect hStart
  have hSame := Store.same_empty chance other
  have hs := Store.sound_empty chance
  have ht := Store.sound_empty other
  obtain ⟨hAnswers, hLast⟩ := answer_same (requests (lines typed)) hs ht hSame
  rw [← hAnswers, ← hEmpty] at hReplies
  have hFollows := follows_converse hRests hLimit (fun line => newline_not_mem_of_mem_lines)
    hRequests hReplies
  rw [← linesOf_utf8, utf8_of_ofUtf8? hInput] at hFollows
  rw [run_eq hArgs input server rfl]
  refine ⟨?_, ?_, ?_, ?_, ?_⟩
  · rw [hFollows.output, hEmpty, transcript_same _ hs ht hSame]
  · rw [Outcome.exitCode, hFollows.ending]
  · rw [Outcome.errorOutput, hFollows.ending]
  · rw [hFollows.written, hUnsent, List.nil_append]
  · rw [hFollows.rests.store_leave hLimit, hFollows.store, hEmpty]
    exact hLast

/-- A value is set and read, with a blank line between, and nothing is executed after quitting. -/
theorem run_of_quit :
    let server : Server := ⟨{}, .empty default, ∅, 0, true⟩
    let typed := "SET k v\n \n GET k\r\nQuit\nDEL k"
    Server.start {} default = .ok server ∧ requests (lines typed) = ["SET k v", "GET k"] ∧
      (run [] (utf8 typed) server).1.output =
        "multikv> OK\nmultikv> multikv> v\nmultikv> " ∧
      (run [] (utf8 typed) server).1.exitCode = 0 ∧
      (run [] (utf8 typed) server).1.errorOutput = "" ∧
      (run [] (utf8 typed) server).2.store.Same
        ((Store.empty default).answer ["SET k v", "GET k"]).2 := by
  intro server typed
  have hEntries : entries (lines typed) = ["SET k v", "", "GET k"] := by decide
  have hRequests : requests (lines typed) = ["SET k v", "GET k"] := by
    rw [requests, hEntries]
    rfl
  have hReplies : ((Store.empty default).answer ["SET k v", "GET k"]).1 = [.ok, .value "v"] := rfl
  have hTranscript : transcript ["SET k v", "", "GET k"] (.empty default) =
      "multikv> OK\nmultikv> multikv> v\nmultikv> " := rfl
  obtain ⟨hOutput, hCode, hError, -, hStore⟩ := @run_of_text {} default server rfl (by decide) []
    rfl _ _ (ofUtf8?_utf8 typed) default (by rw [hRequests]; decide)
    (by rw [hRequests, hReplies]; decide)
  rw [hEntries, hTranscript] at hOutput
  rw [hRequests] at hStore
  exact ⟨rfl, hRequests, hOutput, hCode, hError, hStore⟩

/-- With the greatest limit the first line that is sent is the last, and has no reply. -/
theorem run_of_greatest {config : Config} {chance : Chance} {server : Server}
    (hStart : Server.start config chance = .ok server) (hGreatest : config.maxLineLength = -1)
    {line : String} (hLine : '\n' ∉ line.toList) (hBlank : trim line ≠ "")
    (hQuit : asciiLower (trim line) ≠ "quit") :
    (run [] (utf8 line) server).1 = ⟨text, .error (.io Source.stalled)⟩ := by
  have hNe : line ≠ "" := by
    rintro rfl
    exact hBlank rfl
  obtain ⟨w, t, hSend⟩ := Visitor.send_of_greatest hStart hGreatest (trim line)
  have hTurn := turn_of_error hBlank hQuit hSend
  rw [run]
  simp only [requestWords, linesOf_utf8, lines_of_newline_not_mem hNe hLine, List.map_cons,
    List.map_nil, converse, hTurn]

/-- The request and its reply fit, and there is no reply. -/
theorem run_of_ping :
    let server : Server := ⟨{ maxLineLength := -1 }, .empty default, ∅, 0, true⟩
    Server.start { maxLineLength := -1 } default = .ok server ∧
      requests (lines "PING") = ["PING"] ∧ (utf8 "PING").length ≤ (-1 : UInt64).toNat ∧
      ((Store.empty default).answer ["PING"]).1 = [.pong] ∧ Dialogue.Fits .pong ∧
      transcript (entries (lines "PING")) (.empty default) = "multikv> PONG\nmultikv> " ∧
      (run [] (utf8 "PING") server).1 = ⟨"multikv> ", .error (.io Source.stalled)⟩ ∧
      (run [] (utf8 "PING") server).1.output ≠
        transcript (entries (lines "PING")) (.empty default) := by
  intro server
  have hStart : Server.start { maxLineLength := -1 } default = .ok server := rfl
  have hTranscript : transcript (entries (lines "PING")) (.empty default) =
      "multikv> PONG\nmultikv> " := by decide
  have hRun : (run [] (utf8 "PING") server).1 = ⟨text, .error (.io Source.stalled)⟩ :=
    run_of_greatest hStart rfl (by decide) (by decide) (by decide)
  refine ⟨hStart, by decide, by decide, rfl, by decide, hTranscript, hRun, ?_⟩
  rw [hRun, hTranscript]
  decide

end Keyspace.Prompt
