import Keyspace.Proofs.Command.Grammar
import Keyspace.Proofs.Service.Conversation
import Keyspace.Proofs.Stream.Framing
import Keyspace.Proofs.Text.Lines

/-! # Blanks: which lines of a stream are passed over, and that any other one has one reply -/
namespace Keyspace
open Text
set_option autoImplicit false

namespace Text

/-- White space only, and some of it parts no words: the line is blank, and yet has a word. -/
def IsAmbiguous (s : String) : Prop :=
  (∀ c ∈ s.toList, isWhiteSpace c = true) ∧ ∃ c ∈ s.toList, isSeparator c = false

instance (s : String) : Decidable (IsAmbiguous s) :=
  @instDecidableAnd _ _ (List.decidableBAll _ _) (List.decidableBEx _ _)

theorem IsAmbiguous.words_ne_nil {s : String} (h : IsAmbiguous s) : words s ≠ [] := by
  obtain ⟨-, c, hc, hParts⟩ := h
  intro hNone
  exact absurd (words_eq_nil_iff.mp hNone c hc) (by simp [hParts])

theorem isBlank_iff {s : String} : isBlank s = true ↔ words s = [] ∨ IsAmbiguous s := by
  rw [isBlank, List.all_eq_true]
  constructor
  · intro hBlank
    rcases eq_or_ne (words s) [] with hNone | hWords
    · exact .inl hNone
    · rw [Ne, words_eq_nil_iff] at hWords
      push Not at hWords
      obtain ⟨c, hc, hParts⟩ := hWords
      exact .inr ⟨hBlank, c, hc, Bool.eq_false_iff.mpr hParts⟩
  · rintro (hNone | ⟨hBlank, -⟩)
    · exact fun c hc => isWhiteSpace_of_isSeparator (words_eq_nil_iff.mp hNone c hc)
    · exact hBlank

end Text

namespace Request

theorem read_eq_emptyCommand_iff {line : String} :
    read line = .error .emptyCommand ↔ words line = [] := by
  constructor
  · intro h
    have hDecodes := decodes_read line
    rw [h] at hDecodes
    exact faulty_of_decodes hDecodes
  · intro h
    rw [read, h]

theorem isBlank_eq_false_iff {line : String} :
    isBlank line = false ↔ read line ≠ .error .emptyCommand ∧ ¬ IsAmbiguous line := by
  rw [← Bool.not_eq_true, isBlank_iff, ← read_eq_emptyCommand_iff, not_or]

theorem execute_withoutReturn (line : String) (s : Store) :
    execute (withoutReturn line) s = execute line s := by
  rw [execute, execute, read, read, words_withoutReturn]

end Request

namespace LineReader

variable {r next : LineReader} {line : String}

/-- Whoever reads requests, or serves them, goes on as if the line that comes next were not there. -/
structure Skips (r next : LineReader) : Prop where
  request : r.readRequest = next.readRequest
  command : r.readCommand = next.readCommand
  connection : ∀ (sink : Sink) (s : Store),
    Connection.serve ⟨r, sink⟩ s = Connection.serve ⟨next, sink⟩ s

/-- The line that comes next is a request: it is given as it is, or as what is read from it, and a
connection sends one reply before it goes on. -/
structure Replies (r : LineReader) (line : String) (next : LineReader) : Prop where
  request : r.readRequest = (.ok (some line), next)
  command : r.readCommand = (.ofExcept ((Request.read line).map some), next)
  connection : ∀ (sink : Sink) (s : Store), sink.Takes → ∃ sent : Sink, sent.Takes ∧
    sent.written = sink.written ++ utf8 (Request.execute line s).1.text ∧
    Connection.serve ⟨r, sink⟩ s = Connection.serve ⟨next, sent⟩ (Request.execute line s).2

/-- Passing the line over and finding no command in it are the same, and else it has a reply. -/
structure Agrees (r : LineReader) (line : String) (next : LineReader) : Prop where
  skips : r.Skips next ↔ Request.read line = .error .emptyCommand
  replies : Request.read line ≠ .error .emptyCommand → r.Replies line next

theorem skips_of_blank (h : r.readLine = (.ok (some line), next)) (hBlank : isBlank line = true) :
    r.Skips next := by
  have hRequest := readRequest_of_blank h hBlank
  refine ⟨hRequest, ?_, fun sink s => Connection.serve_of_blank h hBlank s⟩
  rw [readCommand, hRequest, ← readCommand]

theorem replies_of_not_blank (h : r.readLine = (.ok (some line), next))
    (hBlank : isBlank line = false) : r.Replies line next := by
  exact ⟨readRequest_of_not_blank h hBlank, readCommand_of_line h hBlank, fun sink s hTakes =>
    Connection.serve_of_line (c := ⟨r, sink⟩) h hBlank hTakes s⟩

theorem Replies.not_skips (h : r.Replies line next) : ¬ r.Skips next := by
  intro hSkips
  -- the same request would come again, from a reader with less to read
  have hAgain : next.readRequest = (.ok (some line), next) := hSkips.request.symm.trans h.request
  exact Nat.lt_irrefl _ (weight_readRequest_lt hAgain)

theorem skips_iff (h : r.readLine = (.ok (some line), next)) :
    r.Skips next ↔ isBlank line = true := by
  cases hBlank : isBlank line with
  | true => exact iff_of_true (skips_of_blank h hBlank) rfl
  | false => exact iff_of_false (replies_of_not_blank h hBlank).not_skips Bool.false_ne_true

theorem agrees_iff (h : r.readLine = (.ok (some line), next)) :
    r.Agrees line next ↔ ¬ IsAmbiguous line := by
  constructor
  · intro hAgrees hAmbiguous
    have hSkips := (skips_iff h).mpr (isBlank_iff.mpr (.inr hAmbiguous))
    exact hAmbiguous.words_ne_nil (Request.read_eq_emptyCommand_iff.mp (hAgrees.skips.mp hSkips))
  · intro hNot
    constructor
    · rw [skips_iff h, isBlank_iff, Request.read_eq_emptyCommand_iff]
      exact or_iff_left hNot
    · exact fun hRead =>
        replies_of_not_blank h (Request.isBlank_eq_false_iff.mpr ⟨hRead, hNot⟩)

/-- What reading gives that finds these lines and then the end. -/
def told (lines : List String) : List (Result (Option String)) :=
  lines.map (fun line => .ok (some line)) ++ [.ok none]

theorem accepted_told (lines : List String) : accepted (told lines) = lines := by
  induction lines with
  | nil => rfl
  | cons line rest ih => exact congrArg (line :: ·) ih

theorem refusal?_told (lines : List String) : refusal? (told lines) = none := by
  induction lines with
  | nil => rfl
  | cons line rest ih => exact ih

theorem readings_lineBytes {limit : UInt64} {lines : List String}
    (hLines : ∀ line ∈ lines, '\n' ∉ line.toList ∧ (utf8 line).length ≤ limit.toNat) (last : Nat) :
    readings limit last ((lineBytes lines).splitOn newline) =
      told (lines.map withoutReturn) := by
  induction lines with
  | nil => rfl
  | cons line rest ih =>
    obtain ⟨⟨hLine, hFits⟩, hRest⟩ := List.forall_mem_cons.mp hLines
    have hBytes : lineBytes (line :: rest) = utf8 line ++ newline :: lineBytes rest := by
      simp [lineBytes]
    have hShort : (dropReturn (utf8 line)).length ≤ (utf8 line).length := by
      rw [dropReturn]
      split
      · exact (List.dropLast_sublist _).length_le
      · exact Nat.le_refl _
    rw [hBytes, readings_line limit last (newline_not_mem_utf8 hLine),
      if_neg (Nat.not_lt.mpr (hShort.trans hFits)), ih hRest, dropReturn_utf8 hLine, decode,
      ofUtf8?_utf8]
    rfl

end LineReader

namespace Store

theorem answer_withoutReturn (s : Store) (lines : List String) :
    s.answer (lines.map withoutReturn) = s.answer lines := by
  induction lines generalizing s with
  | nil => rfl
  | cons line rest ih =>
    rw [List.map_cons, answer_cons, answer_cons, Request.execute_withoutReturn, ih]

theorem length_answer (s : Store) (lines : List String) :
    (s.answer lines).1.length = lines.length := by
  induction lines generalizing s with
  | nil => rfl
  | cons line rest ih => exact congrArg Nat.succ (ih _)

end Store

namespace Connection
open LineReader

/-- The connection replies to each of the lines in turn, once to each, and then finds the end. -/
structure RepliesToEach (c : Connection) (s : Store) (lines : List String) : Prop where
  ending : (c.serve s).1 = .closed
  sent : (c.serve s).2.1.sink.written =
    c.sink.written ++ (s.answer lines).1.flatMap fun reply => utf8 reply.text
  count : (s.answer lines).1.length = lines.length
  store : (c.serve s).2.2 = (s.answer lines).2

/-- The connection sends one reply more, the error, and ends with it. -/
structure RepliesWith (c : Connection) (s : Store) (e : Error) : Prop where
  ending : (c.serve s).1 = .failed e
  sent : (c.serve s).2.1.sink.written = c.sink.written ++ utf8 (Reply.error e.message).text
  store : (c.serve s).2.2 = s

theorem repliesToEach_of_lines {c : Connection} {limit : UInt64} {lines : List String}
    (hAwaits : c.reader.Awaits limit (lineBytes lines) []) (hLimit : limit.toNat + 1 < UInt64.size)
    (hLines : ∀ line ∈ lines, '\n' ∉ line.toList ∧ (utf8 line).length ≤ limit.toNat)
    (hTakes : c.sink.Takes) (s : Store) : c.RepliesToEach s (lines.filter (!isBlank ·)) := by
  have hConverses := converses_of_awaits hAwaits hLimit hTakes s
  rw [readings_lineBytes hLines] at hConverses
  obtain ⟨hEnding, hSent, hStore⟩ := hConverses
  have hAsked : (lines.map withoutReturn).filter (!isBlank ·) =
      (lines.filter (!isBlank ·)).map withoutReturn := by
    rw [List.filter_map]
    simp only [Function.comp_def, isBlank_withoutReturn]
  rw [accepted_told, hAsked, Store.answer_withoutReturn] at hSent hStore
  rw [refusal?_told] at hEnding hSent
  rw [Option.toList_none, List.map_nil, List.append_nil] at hSent
  exact ⟨hEnding, hSent, s.length_answer _, hStore⟩

theorem repliesWith_of_error {c : Connection} {next : LineReader} {e : Error}
    (h : c.reader.readLine = (.error e, next)) (hFails : Ending.ofReadError e = .failed e)
    (hTakes : c.sink.Takes) (s : Store) : c.RepliesWith s e := by
  obtain ⟨hEnding, hSent, hStore⟩ := converses_of_error h hTakes hFails s []
  exact ⟨hEnding, hSent.trans (congrArg _ (List.flatMap_singleton _ _)), hStore⟩

/-- The two places that tell whether a request is empty agree on the line that comes next exactly
where it is not ambiguous; an ambiguous one is passed over. A line that is refused has its error as
the one reply, and on a stream of lines each that is neither empty nor ambiguous has one. -/
theorem agree_unless_ambiguous (r : LineReader) :
    (∀ (line : String) (next : LineReader), r.readLine = (.ok (some line), next) →
      (r.Agrees line next ↔ ¬ IsAmbiguous line) ∧ (IsAmbiguous line → r.Skips next)) ∧
    ∀ (sink : Sink) (s : Store), sink.Takes →
      (∀ (e : Error) (next : LineReader), r.readLine = (.error e, next) →
        Ending.ofReadError e = .failed e → RepliesWith ⟨r, sink⟩ s e) ∧
      ∀ (limit : UInt64) (lines : List String), limit.toNat + 1 < UInt64.size →
        (∀ line ∈ lines, '\n' ∉ line.toList ∧ (utf8 line).length ≤ limit.toNat) →
        r.Awaits limit (lineBytes lines) [] →
          RepliesToEach ⟨r, sink⟩ s (lines.filter fun line =>
            Request.read line ≠ .error .emptyCommand ∧ ¬ IsAmbiguous line) := by
  refine ⟨fun line next hRead => ⟨agrees_iff hRead, fun hAmbiguous => ?_⟩,
    fun sink s hTakes => ⟨fun e next hRead hFails => ?_, ?_⟩⟩
  · exact skips_of_blank hRead (isBlank_iff.mpr (.inr hAmbiguous))
  · exact repliesWith_of_error hRead hFails hTakes s
  · intro limit lines hLimit hLines hAwaits
    have hAsked : (lines.filter fun line =>
        Request.read line ≠ .error .emptyCommand ∧ ¬ IsAmbiguous line) =
          lines.filter (!isBlank ·) := by
      refine List.filter_congr fun line _ => ?_
      rw [Bool.eq_iff_iff, decide_eq_true_eq, Bool.not_eq_true', Request.isBlank_eq_false_iff]
    rw [hAsked]
    exact repliesToEach_of_lines hAwaits hLimit hLines hTakes s

/-- A request of no command, one that is too long, and a stream in which three lines are passed
over, the last of them for its no-break space. -/
theorem agree_on_bogus :
    Agrees (ofSource ⟨[.data (utf8 "BOGUS\nPING\n")], true⟩ 8) "BOGUS"
        ⟨⟨[], true⟩, utf8 "PING\n", 8⟩ ∧
      RepliesWith ⟨ofSource ⟨[.data (utf8 "SET k value\n")], true⟩ 8, Sink.unlimited⟩
        (.empty default) (.lineTooLong 8) ∧
      (serve ⟨ofSource ⟨[.data (utf8 "\n \t\r\nBO"), .fault ⟨.interrupted, ""⟩,
          .data (utf8 "GUS\n\u00a0\nGET k\r\n")], true⟩ 8, Sink.unlimited⟩
        (.empty default)).2.1.sink.written = utf8 "error: Unknown command 'BOGUS'\n(nil)\n" := by
  have hBogus : (ofSource ⟨[.data (utf8 "BOGUS\nPING\n")], true⟩ 8).readLine =
      (.ok (some "BOGUS"), ⟨⟨[], true⟩, utf8 "PING\n", 8⟩) :=
    (readLine_of_more rfl).trans (readLine_of_done rfl)
  have hLong : (ofSource ⟨[.data (utf8 "SET k value\n")], true⟩ 8).readLine =
      (.error (.lineTooLong 8), ⟨⟨[], true⟩, [], 8⟩) :=
    (readLine_of_more rfl).trans (readLine_of_done rfl)
  have hAwaits : (ofSource ⟨[.data (utf8 "\n \t\r\nBO"), .fault ⟨.interrupted, ""⟩,
      .data (utf8 "GUS\n\u00a0\nGET k\r\n")], true⟩ 8).Awaits 8
      (lineBytes ["", " \t\r", "BOGUS", "\u00a0", "GET k\r"]) [] :=
    ⟨rfl, by decide, by decide, rfl, rfl⟩
  refine ⟨((agree_unless_ambiguous _).1 _ _ hBogus).1.mpr (by decide), ?_, ?_⟩
  · exact ((agree_unless_ambiguous _).2 Sink.unlimited (.empty default)
      Sink.takes_unlimited).1 _ _ hLong rfl
  · have hReplies := ((agree_unless_ambiguous _).2 Sink.unlimited (.empty default)
      Sink.takes_unlimited).2 8 _ (by decide) (by decide) hAwaits
    exact hReplies.sent.trans (by decide)

/-- A no-break space is passed over, and yet it asks for a command, if for one that there is not. -/
theorem no_break_space_skipped :
    let r := ofSource ⟨[.data (utf8 "\u00a0\n")], true⟩ 64
    let next : LineReader := ⟨⟨[], true⟩, [], 64⟩
    r.readLine = (.ok (some "\u00a0"), next) ∧
      Request.read "\u00a0" = .error (.unknownCommand "\u00a0") ∧ r.readCommand.1 = .ok none ∧
      (serve ⟨r, Sink.unlimited⟩ (.empty default)).2.1.sink.written = [] ∧
      ¬ r.Agrees "\u00a0" next := by
  intro r next
  have hMore : r.step = .more ⟨⟨[], true⟩, utf8 "\u00a0\n", 64⟩ := rfl
  have hLine : r.readLine = (.ok (some "\u00a0"), next) :=
    (readLine_of_more hMore).trans (readLine_of_done rfl)
  have hSkips : r.Skips next := skips_of_blank hLine (by decide)
  have hEnd : next.readRequest = (.ok none, next) := by
    rw [readRequest_eq, readLine_of_done rfl]
  refine ⟨hLine, by decide, ?_, ?_, fun hAgrees => ?_⟩
  · rw [hSkips.command, readCommand, hEnd]
  · rw [hSkips.connection, serve_eq, hEnd]
    rfl
  · exact absurd (hAgrees.skips.mp hSkips) (by decide)

end Connection
end Keyspace
