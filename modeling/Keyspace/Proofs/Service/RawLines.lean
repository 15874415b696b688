import Keyspace.Proofs.Command.Strays
import Keyspace.Proofs.Service.Dialogue

/-! # Raw lines: what comes of a line that a client sends as it was given -/
namespace Keyspace
open Text
set_option autoImplicit false

namespace LineReader

variable {r next : LineReader} {line : String}

theorem readCommand_trimEnd (h : r.readLine = (.ok (some (trimEnd line)), next))
    (hNe : trimEnd line ≠ "") :
    r.readCommand = (.ofExcept ((Request.read (trimEnd line)).map some), next) :=
  readCommand_of_line h (isBlank_trimEnd hNe)

end LineReader

namespace Client
open LineReader

variable {line : String}

theorem utf8_request (line : String) :
    utf8 (request line) = utf8 (trimEnd line) ++ [newline] := by
  rw [request, utf8_append, utf8_newline]

theorem written_send (c : Client) (hTakes : c.sink.Takes) (line : String) :
    (c.send line).2.sink.written = c.sink.written ++ utf8 (request line) := by
  rw [send, sink_ask, hTakes.send]

theorem trimEnd_ne_of_words (h : ¬ Frays line) (hWords : words line ≠ []) : trimEnd line ≠ "" := by
  intro hEmpty
  rw [← words_trimEnd h, hEmpty] at hWords
  exact hWords (by simp [words])

/-- The line that a client sends is the one it was given but for the white space at the end. It is
read as the one given unless some of that space is no separator, and then no command is read as
itself. -/
theorem send_intact_unless_frayed (hLine : '\n' ∉ line.toList) (hWords : words line ≠ []) :
    (∀ c : Client, c.sink.Takes →
      (c.send line).2.sink.written = c.sink.written ++ utf8 (request line)) ∧
    ∀ (r : LineReader) (rest : Bytes), r.Pending (utf8 (request line) ++ rest) →
      r.limit.toNat + 1 < UInt64.size →
      (r.limit.toNat < (utf8 (trimEnd line)).length →
        ∃ next, r.readLine = (.error (.lineTooLong r.limit), next)) ∧
      ((utf8 (trimEnd line)).length ≤ r.limit.toNat → ∃ next : LineReader, next.Pending rest ∧
        r.readLine = (.ok (some (trimEnd line)), next) ∧
        (¬ Frays line → r.readCommand = (.ofExcept ((Request.read line).map some), next)) ∧
        ∀ command, Frays line → Request.read line = .ok command →
          r.readCommand.1 ≠ .ok (some command)) := by
  refine ⟨fun c hTakes => c.written_send hTakes line, fun r rest hPending hLimit => ?_⟩
  have hFramed : IsFramed (trimEnd line) := isFramed_trimEnd hLine
  rw [utf8_request, List.append_assoc, List.singleton_append] at hPending
  refine ⟨fun hLong => hPending.readLine_of_long hFramed hLong hLimit, fun hFits => ?_⟩
  obtain ⟨next, hRead, hRest, -⟩ := hPending.readLine hFramed hFits hLimit
  refine ⟨next, hRest, hRead, ?_, ?_⟩
  · intro hFrays
    rw [readCommand_trimEnd hRead (trimEnd_ne_of_words hFrays hWords),
      Request.read_trimEnd hFrays]
  · intro command hFrays hCommand hSame
    rw [readCommand_trimEnd hRead (Request.trimEnd_ne_of_read hCommand)] at hSame
    apply Request.read_trimEnd_ne hFrays hCommand
    cases hTrimmed : Request.read (trimEnd line) with
    | error e =>
      rw [hTrimmed] at hSame
      cases hSame
    | ok other =>
      rw [hTrimmed] at hSame
      cases hSame
      rfl

/-- A blank that is no separator stays where it is within the value. -/
theorem send_intact_of_blanks :
    let line := "  set k a\u00a0b \t\r"
    let r := LineReader.ofSource
      ⟨[.data (utf8 "  set k"), .data (utf8 " a\u00a0b\nPING\n")], true⟩ 64
    '\n' ∉ line.toList ∧ words line ≠ [] ∧ ¬ Frays line ∧
      ((Client.ofSource ⟨[], true⟩).send line).2.sink.written = utf8 "  set k a\u00a0b\n" ∧
      ∃ next : LineReader, next.Pending (utf8 "PING\n") ∧
        r.readLine = (.ok (some "  set k a\u00a0b"), next) ∧
        r.readCommand = (.ok (some (.set "k" "a\u00a0b")), next) := by
  intro line r
  have hLine : '\n' ∉ line.toList := by decide
  have hWords : words line ≠ [] := by decide
  have hFrays : ¬ Frays line := by decide
  have hCommand : Request.read line = .ok (.set "k" "a\u00a0b") := by decide
  have hPending : r.Pending (utf8 (request line) ++ utf8 "PING\n") := ⟨by decide, by decide⟩
  obtain ⟨hWritten, hReads⟩ := send_intact_unless_frayed hLine hWords
  obtain ⟨next, hRest, hRead, hReadCommand, -⟩ := (hReads r _ hPending (by decide)).2 (by decide)
  have hReadCommand := hReadCommand hFrays
  have hTrimmed : trimEnd line = "  set k a\u00a0b" := by decide
  rw [hTrimmed] at hRead
  rw [hCommand] at hReadCommand
  exact ⟨hLine, hWords, hFrays, (hWritten _ Sink.takes_unlimited).trans (by decide), next, hRest,
    hRead, hReadCommand⟩

/-- A no-break space at the end of a value is cut off on the way, and another value is set. -/
theorem no_break_space_cut :
    let line := "SET k v\u00a0"
    let r := LineReader.ofSource ⟨[.data (utf8 "SET k v\n")], true⟩ 65536
    '\n' ∉ line.toList ∧ words line = ["SET", "k", "v\u00a0"] ∧
      ((Client.ofSource ⟨[], true⟩).send line).2.sink.written = utf8 "SET k v\n" ∧
      r.readCommand.1 = .ok (some (.set "k" "v")) ∧
      Request.read line = .ok (.set "k" "v\u00a0") := by
  intro line r
  have hMore : r.step = .more ⟨⟨[], true⟩, utf8 "SET k v\n", 65536⟩ := rfl
  have hRead : r.readLine = (.ok (some "SET k v"), ⟨⟨[], true⟩, [], 65536⟩) :=
    (readLine_of_more hMore).trans (readLine_of_done rfl)
  refine ⟨by decide, by decide, (written_send _ Sink.takes_unlimited line).trans (by decide), ?_,
    by decide⟩
  rw [readCommand_of_line hRead (by decide)]
  rfl

end Client
end Keyspace
