import Keyspace.Service.Connection
import Keyspace.Proofs.Stream.Delivery
import Keyspace.Proofs.Stream.Sending

/-! # Conversation: a connection replies to each line of its stream in turn, up to the first that
is refused -/
namespace Keyspace
open Text
set_option autoImplicit false

/-- The replies to lines, one after the other, and the store that they leave. -/
def Store.answer : Store → List String → List Reply × Store
  | s, [] => ([], s)
  | s, line :: lines =>
    let (reply, s) := Request.execute line s
    let (replies, s) := s.answer lines
    (reply :: replies, s)

theorem Store.answer_cons (s : Store) (line : String) (lines : List String) :
    s.answer (line :: lines) =
      ((Request.execute line s).1 :: ((Request.execute line s).2.answer lines).1,
        ((Request.execute line s).2.answer lines).2) :=
  rfl

namespace LineReader

/-- The lines before the first result that is none. -/
def accepted : List (Result (Option String)) → List String
  | .ok (some line) :: results => line :: accepted results
  | _ => []

/-- The error that comes after the lines, if one does. -/
def refusal? : List (Result (Option String)) → Option Error
  | .ok (some _) :: results => refusal? results
  | .error e :: _ => some e
  | _ => none

theorem readCommand_of_line {r next : LineReader} {line : String}
    (h : r.readLine = (.ok (some line), next))
    (hBlank : isBlank line = false) :
    r.readCommand = (.ofExcept ((Request.read line).map some), next) := by
  rw [readCommand, readRequest_of_not_blank h hBlank]

end LineReader

namespace Connection
open LineReader

variable {c : Connection} {s : Store} {limit : UInt64} {bytes : Bytes}

theorem serve_eq (c : Connection) (s : Store) :
    c.serve s = match c.reader.readRequest with
      | (.ok (some line), reader) =>
        match c.sink.sendReply (Request.execute line s).1 with
        | (.ok (), sink) => serve ⟨reader, sink⟩ (Request.execute line s).2
        | (.error e, sink) => (.ofWriteError e, ⟨reader, sink⟩, (Request.execute line s).2)
      | (.ok none, reader) => (.closed, ⟨reader, c.sink⟩, s)
      | (.error e, reader) =>
        match Ending.ofReadError e with
        | .failed e => (.failed e, ⟨reader, (c.sink.sendReply (.error e.message)).2⟩, s)
        | ending => (ending, ⟨reader, c.sink⟩, s)
      | (.panic, reader) => (.panicked, ⟨reader, c.sink⟩, s) := by
  rw [serve]
  split <;> rename_i hRequest <;> exact hRequest ▸ rfl

theorem serve_of_panic {reader : LineReader} (h : c.reader.readRequest = (.panic, reader))
    (s : Store) : c.serve s = (.panicked, ⟨reader, c.sink⟩, s) := by
  rw [serve_eq, h]

/-- What a connection is to do where reading gives these results: reply to each line that is not
blank, then tell why the next one is refused, if one is, and end with that. -/
structure Converses (c : Connection) (s : Store) (results : List (Result (Option String))) :
    Prop where
  ending : (c.serve s).1 = (refusal? results).elim .closed .failed
  sent : (c.serve s).2.1.sink.written = c.sink.written ++
    ((s.answer ((accepted results).filter (!isBlank ·))).1 ++
      (refusal? results).toList.map fun e => Reply.error e.message).flatMap fun reply =>
        utf8 reply.text
  store : (c.serve s).2.2 = (s.answer ((accepted results).filter (!isBlank ·))).2

theorem converses_of_end {reader : LineReader}
    (h : c.reader.readLine = (.ok none, reader)) (s : Store) : c.Converses s [.ok none] := by
  have hServe := serve_eq c s
  rw [readRequest_eq, h] at hServe
  constructor <;> rw [hServe]
  · rfl
  · exact (List.append_nil _).symm
  · rfl

theorem converses_of_error {e : Error} {reader : LineReader}
    (h : c.reader.readLine = (.error e, reader)) (hTakes : c.sink.Takes)
    (hFails : Ending.ofReadError e = .failed e) (s : Store)
    (results : List (Result (Option String))) : c.Converses s (.error e :: results) := by
  have hServe := serve_eq c s
  rw [readRequest_eq, h] at hServe
  simp only [hFails, Sink.sendReply, hTakes.send] at hServe
  constructor <;> rw [hServe]
  · rfl
  · simp [accepted, refusal?, Store.answer]
  · rfl

theorem serve_of_blank {line : String} {reader : LineReader}
    (h : c.reader.readLine = (.ok (some line), reader)) (hBlank : isBlank line = true)
    (s : Store) : c.serve s = serve ⟨reader, c.sink⟩ s := by
  rw [serve_eq, readRequest_of_blank h hBlank, serve_eq ⟨reader, c.sink⟩]

theorem serve_of_line {line : String} {reader : LineReader}
    (h : c.reader.readLine = (.ok (some line), reader)) (hBlank : isBlank line = false)
    (hTakes : c.sink.Takes) (s : Store) :
    ∃ sink : Sink, sink.Takes ∧
      sink.written = c.sink.written ++ utf8 (Request.execute line s).1.text ∧
      c.serve s = serve ⟨reader, sink⟩ (Request.execute line s).2 := by
  refine ⟨(c.sink.send (Request.execute line s).1.text).2, hTakes.takes_send _, ?_, ?_⟩
  · rw [hTakes.send]
  · rw [serve_eq, readRequest_of_not_blank h hBlank]
    simp only [Sink.sendReply, hTakes.send]

theorem converses_of_line {line : String} {reader : LineReader}
    (h : c.reader.readLine = (.ok (some line), reader)) (hTakes : c.sink.Takes)
    {results : List (Result (Option String))}
    (hRest : ∀ (sink : Sink) (s : Store), sink.Takes → Converses ⟨reader, sink⟩ s results)
    (s : Store) : c.Converses s (.ok (some line) :: results) := by
  cases hBlank : isBlank line with
  | true =>
    obtain ⟨hEnding, hSent, hStore⟩ := hRest c.sink s hTakes
    rw [← serve_of_blank h hBlank] at hEnding hSent hStore
    have hAccepted : (accepted (.ok (some line) :: results)).filter (!isBlank ·) =
        (accepted results).filter (!isBlank ·) :=
      List.filter_cons_of_neg (by simp [hBlank])
    exact ⟨hEnding, hAccepted ▸ hSent, hAccepted ▸ hStore⟩
  | false =>
    obtain ⟨sink, hSink, hWritten, hServe⟩ := serve_of_line h hBlank hTakes s
    obtain ⟨hEnding, hSent, hStore⟩ := hRest sink (Request.execute line s).2 hSink
    rw [← hServe] at hEnding hSent hStore
    have hAccepted : (accepted (.ok (some line) :: results)).filter (!isBlank ·) =
        line :: (accepted results).filter (!isBlank ·) :=
      List.filter_cons_of_pos (by simp [hBlank])
    refine ⟨hEnding, ?_, hAccepted ▸ hStore⟩
    rw [hSent, hWritten, hAccepted, List.append_assoc]
    rfl

theorem converses_of_awaits (h : c.reader.Awaits limit bytes [])
    (hLimit : limit.toNat + 1 < UInt64.size) (hTakes : c.sink.Takes) (s : Store) :
    c.Converses s (readings limit (limit.toNat + 1) (bytes.splitOn newline)) := by
  -- on what is left to be read: a line takes the first reading off, anything else is the last
  induction hResults : readings limit (limit.toNat + 1) (bytes.splitOn newline)
    generalizing c s bytes with
  | nil =>
    obtain ⟨result, next, -, hGives⟩ := h.readLine hLimit
    cases hGives with
    | line _ hFirst => cases hResults.symm.trans hFirst
    | last _ _ hLast => cases hResults.symm.trans hLast
  | cons result results ih =>
    obtain ⟨given, next, hRead, hGives⟩ := h.readLine hLimit
    cases hGives with
    | line hNext hFirst =>
      rename_i rest line
      cases hResults.symm.trans hFirst
      have hTells := tells_decode line
      cases hResult : decode line with
      | ok found =>
        rw [hResult] at hRead hTells
        cases hTells
        exact converses_of_line hRead hTakes (fun sink s hSink => ih hNext hSink s rfl) s
      | error e =>
        rw [hResult] at hRead hTells
        cases hTells
        exact converses_of_error hRead hTakes rfl s _
      | panic =>
        rw [hResult] at hTells
        cases hTells
    | last hEnds _ hLast =>
      cases hResults.symm.trans hLast
      cases hEnds with
      | stream => exact converses_of_end hRead s
      | tooLong => exact converses_of_error hRead hTakes rfl s []

/-- A connection whose stream ends after these bytes, and whose replies are taken, replies to each
line in turn up to the first that is refused, however the bytes arrive. The bound of a last line
without a newline is one more than the limit, which matters only to a line of just that length. -/
theorem serve_delivered (hLimit : limit.toNat + 1 < UInt64.size) {source : Source}
    (hSource : source.Delivers bytes) (hFailures : source.failures = []) {sink : Sink}
    (hSink : sink.Takes) (s : Store) :
    Converses ⟨ofSource source limit, sink⟩ s
        (readings limit (limit.toNat + 1) (bytes.splitOn newline)) ∧
      ((∀ piece ∈ (bytes.splitOn newline).getLast?, piece.length ≠ limit.toNat + 1) →
        Converses ⟨ofSource source limit, sink⟩ s
          (readings limit limit.toNat (bytes.splitOn newline))) := by
  have hAwaits : (ofSource source limit).Awaits limit bytes [] :=
    ⟨rfl, hSource.bytes, hSource.filled, hSource.ended, hFailures⟩
  have hConverses := converses_of_awaits (c := ⟨_, sink⟩) hAwaits hLimit hSink s
  exact ⟨hConverses, fun hLast => readings_of_last_ne hLast ▸ hConverses⟩

/-- A request in two pieces, a blank line, a request for a key that is not there, and a line that
is too long. -/
theorem serve_long_line :
    let c : Connection := ⟨ofSource ⟨[.data (utf8 "PI"), .fault ⟨.interrupted, ""⟩,
      .data (utf8 "NG\r\n \nGET"), .data (utf8 " k\nSET k value")], true⟩ 8, Sink.unlimited⟩
    (c.serve (.empty default)).1 = .failed (.lineTooLong 8) ∧
      (c.serve (.empty default)).2.1.sink.written =
        utf8 "PONG\n(nil)\nerror: Protocol error: line exceeds 8 bytes\n" ∧
      (c.serve (.empty default)).2.2 = .empty default := by
  obtain ⟨hEnding, hSent, hStore⟩ := (@serve_delivered 8 (utf8 "PING\r\n \nGET k\nSET k value")
    (by decide)
    ⟨[.data (utf8 "PI"), .fault ⟨.interrupted, ""⟩, .data (utf8 "NG\r\n \nGET"),
      .data (utf8 " k\nSET k value")], true⟩
    ⟨rfl, by decide, rfl⟩ rfl Sink.unlimited Sink.takes_unlimited (.empty default)).2 (by decide)
  exact ⟨hEnding.trans rfl, hSent.trans rfl, hStore.trans rfl⟩

theorem serve_unterminated :
    let c : Connection := ⟨ofSource ⟨[.data (utf8 "PING ")], true⟩ 4, Sink.unlimited⟩
    (4 : UInt64).toNat < (utf8 "PING ").length ∧ (c.serve (.empty default)).1 = .closed ∧
      (c.serve (.empty default)).2.1.sink.written = utf8 "PONG\n" ∧
      ¬ c.Converses (.empty default) (readings 4 4 ((utf8 "PING ").splitOn newline)) := by
  have hAwaits : (ofSource ⟨[.data (utf8 "PING ")], true⟩ 4).Awaits 4 (utf8 "PING ") [] :=
    ⟨rfl, rfl, by decide, rfl, rfl⟩
  have hConverses := converses_of_awaits (c := ⟨_, Sink.unlimited⟩) hAwaits (by decide)
    Sink.takes_unlimited (.empty default)
  refine ⟨by decide, hConverses.ending.trans rfl, hConverses.sent.trans rfl, fun hClaim => ?_⟩
  exact Ending.noConfusion (hConverses.ending.symm.trans hClaim.ending)

end Connection
end Keyspace
