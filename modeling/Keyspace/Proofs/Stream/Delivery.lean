import Mathlib.Data.List.Forall2
import Keyspace.Proofs.Stream.Framing

/-! # Delivery: what is read from a stream depends on its bytes alone, however they arrive -/
namespace Keyspace
open Text
set_option autoImplicit false

namespace Source

/-- The stream is these bytes and then its end, and any read on the way may fail. -/
structure Delivers (s : Source) (bytes : Bytes) : Prop where
  bytes : s.bytes = bytes
  filled : s.Filled
  ended : s.ended = true

end Source

namespace LineReader

/-- The failure of the stream that a reader reports, if that is what it does. -/
def failure? : Result (Option String) → Option Fault
  | .error (.io fault) => some fault
  | _ => none

/-- After such a result nothing more is read. -/
inductive Ends : Result (Option String) → Prop
  | stream : Ends (.ok none)
  | tooLong (limit : UInt64) : Ends (.error (.lineTooLong limit))

/-- Reading line after line, until the stream has ended or a line is too long. -/
inductive ReadsAll : LineReader → List (Result (Option String)) → LineReader → Prop
  | last {r next : LineReader} {result : Result (Option String)}
      (hRead : r.readLine = (result, next)) (hEnds : Ends result) : ReadsAll r [result] next
  | more {r next final : LineReader} {result : Result (Option String)}
      {results : List (Result (Option String))} (hRead : r.readLine = (result, next))
      (hEnds : ¬ Ends result) (hRest : ReadsAll next results final) :
      ReadsAll r (result :: results) final

/-- What the pieces between newlines read as, up to the end or to the first one that is too long.
The last piece has no newline after it: it is a line only if it is not empty, keeps the return at
its end, and has a bound of its own. -/
def readings (limit : UInt64) (last : Nat) : List Bytes → List (Result (Option String))
  | [] => [.ok none]
  | [piece] =>
    if piece = [] then [.ok none]
    else if last < piece.length then [.error (.lineTooLong limit)]
    else [decode piece, .ok none]
  | piece :: next :: pieces =>
    if limit.toNat < (dropReturn piece).length then [.error (.lineTooLong limit)]
    else decode (dropReturn piece) :: readings limit last (next :: pieces)

variable {r next : LineReader} {limit : UInt64} {last : Nat} {line bytes rest : Bytes}
  {failures : List Fault} {result : Result (Option String)}

theorem readings_line (limit : UInt64) (last : Nat) (h : newline ∉ line) (rest : Bytes) :
    readings limit last ((line ++ newline :: rest).splitOn newline) =
      if limit.toNat < (dropReturn line).length then [.error (.lineTooLong limit)]
      else decode (dropReturn line) :: readings limit last (rest.splitOn newline) := by
  rw [List.splitOn_append_cons_self_of_not_mem h]
  obtain ⟨piece, pieces, hPieces⟩ := List.exists_cons_of_ne_nil (List.splitOn_ne_nil newline rest)
  rw [hPieces, readings]

theorem readings_rest (limit : UInt64) (last : Nat) (h : newline ∉ bytes) :
    readings limit last (bytes.splitOn newline) =
      if bytes = [] then [.ok none]
      else if last < bytes.length then [.error (.lineTooLong limit)]
      else [decode bytes, .ok none] := by
  rw [List.splitOn_eq_singleton h, readings]

theorem length_le_dropReturn (line : Bytes) : line.length ≤ (dropReturn line).length + 1 := by
  rw [dropReturn]
  split
  · rw [List.length_dropLast]
    omega
  · omega

/-- What tells a line: the text that has these bytes, or that no text has them. -/
inductive Tells (line : Bytes) : Result (Option String) → Prop
  | text {text : String} (hText : utf8 text = line) : Tells line (.ok (some text))
  | notUtf8 (hNone : ∀ text, utf8 text ≠ line) : Tells line (.error .lineNotUtf8)

theorem tells_decode (line : Bytes) : Tells line (decode line) := by
  rw [decode]
  split
  · rename_i text hText
    exact .text (utf8_of_ofUtf8? hText)
  · rename_i hNone
    refine .notUtf8 ?_
    rintro text rfl
    rw [ofUtf8?_utf8] at hNone
    cases hNone

theorem Tells.failure?_eq_none (h : Tells line result) : failure? result = none := by
  cases h <;> rfl

theorem Tells.not_ends (h : Tells line result) : ¬ Ends result := by
  intro hEnds
  cases h <;> cases hEnds

theorem Ends.failure?_eq_none (h : Ends result) : failure? result = none := by
  cases h <;> rfl

theorem readings_append {before after : List Bytes} (hAfter : after ≠ [])
    (hFits : ∀ piece ∈ before, (dropReturn piece).length ≤ limit.toNat) :
    readings limit last (before ++ after) =
      before.map (fun piece => decode (dropReturn piece)) ++ readings limit last after := by
  induction before with
  | nil => rfl
  | cons piece before ih =>
    obtain ⟨hPiece, hFits⟩ := List.forall_mem_cons.mp hFits
    obtain ⟨next, more, hNext⟩ :=
      List.exists_cons_of_ne_nil (List.append_ne_nil_of_right_ne_nil before hAfter)
    rw [List.cons_append, hNext, readings, if_neg (Nat.not_lt.mpr hPiece), ← hNext, ih hFits]
    rfl

/-- The bound of the last piece may be the limit itself, unless it makes a difference. -/
theorem readings_of_last_ne {pieces : List Bytes}
    (h : ∀ piece ∈ pieces.getLast?, piece.length ≠ limit.toNat + 1) :
    readings limit (limit.toNat + 1) pieces = readings limit limit.toNat pieces := by
  induction pieces with
  | nil => rfl
  | cons piece rest ih =>
    cases rest with
    | nil =>
      have hLength := h piece rfl
      have hSame : limit.toNat + 1 < piece.length ↔ limit.toNat < piece.length := by omega
      simp only [readings, hSame]
    | cons next pieces =>
      rw [List.getLast?_cons_cons] at h
      simp only [readings, ih h]

/-- A reader with this limit, the bytes that it is still to take before the end, and the failures
that it is still to meet. -/
structure Awaits (r : LineReader) (limit : UInt64) (bytes : Bytes) (failures : List Fault) :
    Prop where
  limit : r.limit = limit
  bytes : r.buffer ++ r.source.bytes = bytes
  filled : r.source.Filled
  ended : r.source.ended = true
  failures : r.source.failures = failures

/-- What a reader gives that awaits these bytes and failures. -/
inductive Gives (limit : UInt64) :
    Bytes → List Fault → Result (Option String) → LineReader → Prop
  | failure {bytes : Bytes} {failures : List Fault} {fault : Fault} {next : LineReader}
      (hNext : next.Awaits limit bytes failures) :
      Gives limit bytes (fault :: failures) (.error (.io fault)) next
  | line {bytes rest : Bytes} {failures : List Fault} {line : Bytes} {next : LineReader}
      (hNext : next.Awaits limit rest failures)
      (hReadings : readings limit (limit.toNat + 1) (bytes.splitOn newline) =
        decode line :: readings limit (limit.toNat + 1) (rest.splitOn newline)) :
      Gives limit bytes failures (decode line) next
  | last {bytes : Bytes} {failures : List Fault} {result : Result (Option String)}
      {next : LineReader} (hEnds : Ends result) (hFailures : next.source.failures = failures)
      (hReadings : readings limit (limit.toNat + 1) (bytes.splitOn newline) = [result]) :
      Gives limit bytes failures result next

/-- The beginning of a line that is too long is enough to know that the line is. -/
theorem readings_of_long (h : newline ∉ line) (hLong : limit.toNat + 1 < line.length)
    (rest : Bytes) :
    readings limit (limit.toNat + 1) ((line ++ rest).splitOn newline) =
      [.error (.lineTooLong limit)] := by
  by_cases hMem : newline ∈ line ++ rest
  · obtain ⟨first, tail, hSplit, hFirst⟩ := List.eq_append_cons_of_mem hMem
    have hLe := (length_le_of_newline_not_mem hSplit h).1
    have hReturn := length_le_dropReturn first
    rw [hSplit, readings_line _ _ hFirst, if_pos (by omega)]
  · have hLength : limit.toNat + 1 < (line ++ rest).length := by
      rw [List.length_append]
      omega
    rw [readings_rest _ _ hMem, if_neg (List.ne_nil_of_length_pos (by omega)), if_pos hLength]

/-- What a call gives on a stream that has its end is, but for a failure, the first reading. -/
theorem Call.gives {left : List Fault} (h : Call limit true bytes failures result rest left)
    (hNext : next.Awaits limit rest left) : Gives limit bytes failures result next := by
  cases h with
  | @line line _ _ hLine =>
    have hReadings := readings_line limit (limit.toNat + 1) hLine rest
    rw [complete]
    split
    · rename_i hLong
      exact .last (.tooLong _) hNext.failures (hReadings.trans (if_pos hLong))
    · rename_i hFits
      exact .line hNext (hReadings.trans (if_neg hFits))
  | long hLine hLong =>
    exact .last (.tooLong _) hNext.failures (readings_of_long hLine hLong _)
  | failure => exact .failure hNext
  | stalled hOpen => cases hOpen
  | last _ hNe hLine hFits =>
    have hReadings := readings_rest limit (limit.toNat + 1) hLine
    rw [if_neg hNe, if_neg (Nat.not_lt.mpr hFits)] at hReadings
    exact .line hNext hReadings
  | ended => exact .last .stream hNext.failures rfl

theorem Awaits.readLine (h : r.Awaits limit bytes failures)
    (hLimit : limit.toNat + 1 < UInt64.size) :
    ∃ result next, r.readLine = (result, next) ∧ Gives limit bytes failures result next := by
  obtain ⟨rfl, rfl, hFilled, hEnded, rfl⟩ := h
  obtain ⟨hContinues, hNext, hCall⟩ := comes_readLine hFilled hLimit
  rw [hEnded] at hCall
  exact ⟨_, _, rfl, hCall.gives ⟨hContinues.limit, rfl, hNext, hContinues.ended.trans hEnded, rfl⟩⟩

theorem ReadsAll.unique {results others : List (Result (Option String))}
    {final other : LineReader} (h : ReadsAll r results final) (hOther : ReadsAll r others other) :
    others = results ∧ other = final := by
  induction h generalizing others other with
  | last hRead hEnds =>
    cases hOther with
    | last hSame _ =>
      cases hRead.symm.trans hSame
      exact ⟨rfl, rfl⟩
    | more hSame hGoesOn _ =>
      cases hRead.symm.trans hSame
      exact absurd hEnds hGoesOn
  | more hRead hGoesOn _ ih =>
    cases hOther with
    | last hSame hEnds =>
      cases hRead.symm.trans hSame
      exact absurd hEnds hGoesOn
    | more hSame _ hRest =>
      cases hRead.symm.trans hSame
      obtain ⟨rfl, rfl⟩ := ih hRest
      exact ⟨rfl, rfl⟩

/-- Each result takes a failure or a reading off what the reader awaits. -/
theorem Awaits.readsAll (h : r.Awaits limit bytes failures)
    (hLimit : limit.toNat + 1 < UInt64.size) :
    ∃ results final, ReadsAll r results final ∧
      results.filter (fun result => (failure? result).isNone) =
        readings limit (limit.toNat + 1) (bytes.splitOn newline) ∧
      failures = results.filterMap failure? ++ final.source.failures := by
  induction hSize : failures.length +
    (readings limit (limit.toNat + 1) (bytes.splitOn newline)).length using Nat.strong_induction_on
    generalizing r bytes failures with
  | _ size ih =>
    obtain ⟨result, next, hRead, hGives⟩ := h.readLine hLimit
    cases hGives with
    | failure hNext =>
      rw [List.length_cons] at hSize
      obtain ⟨results, final, hRest, hReadings, hFailures⟩ := ih _ (by omega) hNext rfl
      exact ⟨_, final, .more hRead nofun hRest, hReadings, congrArg (_ :: ·) hFailures⟩
    | line hNext hFirst =>
      rename_i rest line
      rw [hFirst, List.length_cons] at hSize
      obtain ⟨results, final, hRest, hReadings, hFailures⟩ := ih _ (by omega) hNext rfl
      have hNone := (tells_decode line).failure?_eq_none
      refine ⟨_, final, .more hRead (tells_decode line).not_ends hRest, ?_, ?_⟩
      · rw [List.filter_cons_of_pos (by rw [hNone]; rfl), hReadings, hFirst]
      · rw [List.filterMap_cons_none hNone, hFailures]
    | last hEnds hFailures hReadings =>
      have hNone := hEnds.failure?_eq_none
      refine ⟨_, next, .last hRead hEnds, ?_, ?_⟩
      · rw [hReadings, List.filter_cons_of_pos (by rw [hNone]; rfl), List.filter_nil]
      · rw [List.filterMap_cons_none hNone, hFailures]
        rfl

/-- Reading line after line comes to an end and gives, but for the failures on the way, what the
bytes read as, however they arrive; and it reports each failure that it meets once. The pieces
before a newline are told one by one as long as none is too long. -/
theorem readsAll_delivered (hLimit : limit.toNat + 1 < UInt64.size) (bytes : Bytes) :
    (∀ s : Source, s.Delivers bytes → ∃ results final, ReadsAll (ofSource s limit) results final ∧
      (∀ others other, ReadsAll (ofSource s limit) others other →
        others = results ∧ other = final) ∧
      results.filter (fun result => (failure? result).isNone) =
        readings limit (limit.toNat + 1) (bytes.splitOn newline) ∧
      s.failures = results.filterMap failure? ++ final.source.failures) ∧
    ∀ before after, bytes.splitOn newline = before ++ after → after ≠ [] →
      (∀ piece ∈ before, (dropReturn piece).length ≤ limit.toNat) →
      ∃ told, readings limit (limit.toNat + 1) (bytes.splitOn newline) =
          told ++ readings limit (limit.toNat + 1) after ∧
        List.Forall₂ (fun piece => Tells (dropReturn piece)) before told := by
  constructor
  · intro s h
    have hAwaits : (ofSource s limit).Awaits limit bytes s.failures :=
      ⟨rfl, h.bytes, h.filled, h.ended, rfl⟩
    obtain ⟨results, final, hReads, hReadings, hFailures⟩ := hAwaits.readsAll hLimit
    exact ⟨results, final, hReads, fun _ _ hOther => hReads.unique hOther, hReadings, hFailures⟩
  · intro before after hPieces hAfter hFits
    refine ⟨_, hPieces ▸ readings_append hAfter hFits, ?_⟩
    rw [List.forall₂_map_right_iff]
    exact List.forall₂_same.mpr fun piece _ => tells_decode (dropReturn piece)

/-- Two lines, one of them with a return at its end and one that is no text, and the rest. -/
theorem readsAll_interrupted :
    ∃ results final,
      ReadsAll (ofSource ⟨[.data (utf8 "ab\r"), .fault ⟨.wouldBlock, ""⟩, .data (utf8 "\nc"),
        .fault ⟨.interrupted, ""⟩, .data [255, newline], .data (utf8 "d")], true⟩ 4)
        results final ∧
      results.filter (fun result => (failure? result).isNone) =
        [.ok (some "ab"), .error .lineNotUtf8, .ok (some "d"), .ok none] ∧
      [⟨.wouldBlock, ""⟩] = results.filterMap failure? ++ final.source.failures := by
  obtain ⟨results, final, hReads, -, hReadings, hFailures⟩ :=
    (@readsAll_delivered 4 (by decide) (utf8 "ab\r\nc" ++ [255, newline] ++ utf8 "d")).1
      ⟨[.data (utf8 "ab\r"), .fault ⟨.wouldBlock, ""⟩, .data (utf8 "\nc"),
        .fault ⟨.interrupted, ""⟩, .data [255, newline], .data (utf8 "d")], true⟩
      ⟨rfl, by decide, rfl⟩
  exact ⟨results, final, hReads, hReadings.trans (by decide), hFailures⟩

end LineReader
end Keyspace
