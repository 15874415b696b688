import Keyspace.Proofs.Stream.Calls
import Keyspace.Proofs.Text.Line

/-! # Framing: lines that fit are read one by one, however their bytes arrive -/
namespace Keyspace
open Text
set_option autoImplicit false

namespace LineReader

variable {r : LineReader} {bytes rest : Bytes} {text : String}

/-- The bytes that a reader is still to take are these, in the buffer or on their way. -/
structure Pending (r : LineReader) (bytes : Bytes) : Prop where
  bytes : r.buffer ++ r.source.bytes = bytes
  flows : r.source.Flows

theorem complete_line (hText : IsFramed text) {limit : UInt64}
    (hFits : (utf8 text).length ≤ limit.toNat) :
    complete limit (dropReturn (utf8 text)) = .ok (some text) := by
  rw [dropReturn, if_neg hText.getLast?_ne, complete, if_neg (Nat.not_lt.mpr hFits), decode,
    ofUtf8?_utf8]

/-- The line that comes next is taken, or it is too long already before its end. -/
theorem Pending.readLine_cases {line : Bytes} (h : r.Pending (line ++ newline :: rest))
    (hLine : newline ∉ line) (hLimit : r.limit.toNat + 1 < UInt64.size) :
    ∃ result next, r.readLine = (result, next) ∧ next.limit = r.limit ∧
      (result = complete r.limit (dropReturn line) ∧ next.Pending rest ∨
        r.limit.toNat + 1 < line.length ∧ result = .error (.lineTooLong r.limit)) := by
  obtain ⟨hFilled, hFailures⟩ := Source.flows_iff.mp h.flows
  obtain ⟨hContinues, hNext, hCall⟩ := comes_readLine hFilled hLimit
  rw [awaited, h.bytes, hFailures] at hCall
  refine ⟨_, _, rfl, hContinues.limit, ?_⟩
  rcases hCall.of_line hLine with ⟨hResult, hRest, hLeft⟩ | hLong | ⟨fault, hFault, -⟩
  · exact .inl ⟨hResult, hRest, Source.flows_iff.mpr ⟨hNext, hLeft⟩⟩
  · exact .inr hLong
  · cases hFault

theorem Pending.readLine (h : r.Pending (utf8 text ++ newline :: rest)) (hText : IsFramed text)
    (hFits : (utf8 text).length ≤ r.limit.toNat) (hLimit : r.limit.toNat + 1 < UInt64.size) :
    ∃ next, r.readLine = (.ok (some text), next) ∧ next.Pending rest ∧ next.limit = r.limit := by
  obtain ⟨result, next, hRead, hSame, ⟨rfl, hRest⟩ | ⟨hLong, -⟩⟩ :=
    h.readLine_cases hText.newline_not_mem hLimit
  · rw [complete_line hText hFits] at hRead
    exact ⟨next, hRead, hRest, hSame⟩
  · omega

theorem Pending.readLine_of_long (h : r.Pending (utf8 text ++ newline :: rest))
    (hText : IsFramed text) (hLong : r.limit.toNat < (utf8 text).length)
    (hLimit : r.limit.toNat + 1 < UInt64.size) :
    ∃ next, r.readLine = (.error (.lineTooLong r.limit), next) := by
  obtain ⟨result, next, hRead, -, ⟨rfl, -⟩ | ⟨-, rfl⟩⟩ :=
    h.readLine_cases hText.newline_not_mem hLimit
  · rw [dropReturn, if_neg hText.getLast?_ne, complete, if_pos hLong] at hRead
    exact ⟨next, hRead⟩
  · exact ⟨next, hRead⟩

def lineBytes (lines : List String) : Bytes := lines.flatMap fun line => utf8 line ++ [newline]

theorem Pending.readBody {lines : List String} (h : r.Pending (lineBytes lines ++ rest))
    (hLines : ∀ line ∈ lines, IsLine line)
    (hFits : ∀ line ∈ lines, (utf8 line).length ≤ r.limit.toNat)
    (hLimit : r.limit.toNat + 1 < UInt64.size) :
    ∃ next, LineReader.readBody lines.length r = (.ok lines, next) ∧ next.Pending rest ∧
      next.limit = r.limit := by
  induction lines generalizing r with
  | nil => exact ⟨r, rfl, h, rfl⟩
  | cons line lines ih =>
    have hSplit : lineBytes (line :: lines) ++ rest =
        utf8 line ++ newline :: (lineBytes lines ++ rest) := by
      simp [lineBytes]
    obtain ⟨hLine, hLines⟩ := List.forall_mem_cons.mp hLines
    obtain ⟨hFit, hFits⟩ := List.forall_mem_cons.mp hFits
    obtain ⟨next, hRead, hPending, hSame⟩ :=
      Pending.readLine (hSplit ▸ h) hLine.isFramed hFit hLimit
    rw [← hSame] at hFits hLimit
    obtain ⟨last, hBody, hRest, hLast⟩ := ih hPending hLines hFits hLimit
    refine ⟨last, ?_, hRest, hLast.trans hSame⟩
    rw [List.length_cons, LineReader.readBody]
    simp only [hRead, hBody]
    rfl

theorem Pending.readReply {verb : Option Verb} {first : String} {body : List String}
    (h : r.Pending (lineBytes (first :: body) ++ rest))
    (hLines : ∀ line ∈ first :: body, IsLine line)
    (hFits : ∀ line ∈ first :: body, (utf8 line).length ≤ r.limit.toNat)
    (hLimit : r.limit.toNat + 1 < UInt64.size) (hBody : bodyLength verb first = body.length) :
    ∃ next, r.readReply verb = (.ok ("\n".intercalate (first :: body)), next) ∧
      next.Pending rest := by
  have hSplit : lineBytes (first :: body) ++ rest =
      utf8 first ++ newline :: (lineBytes body ++ rest) := by
    simp [lineBytes]
  obtain ⟨hFirst, hLines⟩ := List.forall_mem_cons.mp hLines
  obtain ⟨hFit, hFits⟩ := List.forall_mem_cons.mp hFits
  obtain ⟨next, hRead, hPending, hSame⟩ := Pending.readLine (hSplit ▸ h) hFirst.isFramed hFit hLimit
  rw [← hSame] at hFits hLimit
  obtain ⟨last, hReadBody, hRest, -⟩ := hPending.readBody hLines hFits hLimit
  refine ⟨last, ?_, hRest⟩
  simp only [LineReader.readReply, hRead, hBody, hReadBody]
  rfl

theorem readLine_of_more {next : LineReader} (h : r.step = .more next) :
    r.readLine = next.readLine := by
  rw [LineReader.readLine]
  split
  · rename_i hDone
    cases h.symm.trans hDone
  · rename_i hMore
    cases h.symm.trans hMore
    rfl

theorem readLine_of_done {result : Result (Option String)} {next : LineReader}
    (h : r.step = .done result next) : r.readLine = (result, next) := by
  rw [LineReader.readLine]
  split
  · rename_i hDone
    cases h.symm.trans hDone
    rfl
  · rename_i hMore
    cases h.symm.trans hMore

theorem readRequest_eq (r : LineReader) :
    r.readRequest = match r.readLine with
      | (.ok (some line), next) => if isBlank line then next.readRequest else (.ok (some line), next)
      | (.ok none, next) => (.ok none, next)
      | (.error e, next) => (.error e, next)
      | (.panic, next) => (.panic, next) := by
  rw [readRequest]
  split <;> rename_i hLine <;> rw [hLine]

theorem readRequest_of_blank {r next : LineReader} {line : String}
    (h : r.readLine = (.ok (some line), next)) (hBlank : isBlank line = true) :
    r.readRequest = next.readRequest := by
  rw [readRequest_eq, h]
  exact if_pos hBlank

theorem readRequest_of_not_blank {r next : LineReader} {line : String}
    (h : r.readLine = (.ok (some line), next)) (hBlank : isBlank line = false) :
    r.readRequest = (.ok (some line), next) := by
  rw [readRequest_eq, h]
  exact if_neg (Bool.eq_false_iff.mp hBlank)

theorem readLine_of_panic (h : newline ∉ r.buffer)
    (hLimit : ¬ r.limit.toNat + 1 < UInt64.size) : r.readLine = (.panic, r) :=
  readLine_of_done (step_of_panic h hLimit)

/-- The greatest limit leaves no room for the threshold, which is one more. -/
theorem not_lt_of_greatest : ¬ (-1 : UInt64).toNat + 1 < UInt64.size := by decide

/-- Nothing at all is read within the greatest limit, whatever the stream would bring. -/
theorem readLine_of_greatest (source : Source) :
    (ofSource source (-1)).readLine = (.panic, ofSource source (-1)) :=
  readLine_of_panic List.not_mem_nil not_lt_of_greatest

theorem readRequest_of_greatest (source : Source) :
    (ofSource source (-1)).readRequest = (.panic, ofSource source (-1)) := by
  rw [readRequest_eq, readLine_of_greatest]

theorem readReply_of_greatest (source : Source) (verb : Option Verb) :
    (ofSource source (-1)).readReply verb = (.panic, ofSource source (-1)) := by
  rw [LineReader.readReply, readLine_of_greatest]

theorem pending_ofBytes (bytes : Bytes) (ended : Bool) (limit : UInt64) :
    (ofSource (.ofBytes bytes ended) limit).Pending bytes := by
  cases bytes with
  | nil => exact ⟨rfl, by simp [Source.Flows, Source.ofBytes, ofSource]⟩
  | cons byte bytes =>
    constructor
    · simp [ofSource, Source.ofBytes, Source.bytes, Arrival.bytes]
    · simp [ofSource, Source.ofBytes, Source.Flows, Arrival.Flows]

end LineReader
end Keyspace
