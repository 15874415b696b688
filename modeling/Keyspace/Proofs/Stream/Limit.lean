import Mathlib.Logic.Function.Iterate
import Keyspace.Proofs.Stream.Delivery

/-! # The limit: in whatever call, a line that is too long is refused, and not given -/
namespace Keyspace
open Text
set_option autoImplicit false

namespace LineReader

variable {r : LineReader} {limit : UInt64} {last : Nat} {bytes rest final : Bytes}
  {ended : Bool} {failures left : List Fault} {result : Result (Option String)} {text : String}

/-- What follows the last newline is what did so before, or nothing. -/
def Trails (bytes rest : Bytes) : Prop :=
  ∀ piece ∈ (rest.splitOn newline).getLast?,
    piece = [] ∨ piece ∈ (bytes.splitOn newline).getLast?

theorem Trails.refl (bytes : Bytes) : Trails bytes bytes := fun _ => .inr

theorem Trails.trans (h : Trails bytes rest) (hFinal : Trails rest final) : Trails bytes final := by
  intro piece hPiece
  rcases hFinal piece hPiece with hNil | hRest
  · exact .inl hNil
  · exact h piece hRest

theorem trails_nil (bytes : Bytes) : Trails bytes [] := by
  intro piece hPiece
  rw [List.splitOn_nil, List.getLast?_singleton, Option.mem_some] at hPiece
  exact .inl hPiece.symm

theorem trails_of_line {line : Bytes} (h : newline ∉ line) (rest : Bytes) :
    Trails (line ++ newline :: rest) rest := by
  intro piece hPiece
  rw [List.splitOn_append_cons_self_of_not_mem h, List.getLast?_cons]
  exact .inr (by rw [Option.mem_def.mp hPiece]; rfl)

theorem Trails.of_unbroken (h : Trails bytes rest) (hNone : newline ∉ rest) :
    rest = [] ∨ rest ∈ (bytes.splitOn newline).getLast? := by
  refine h rest ?_
  rw [List.splitOn_eq_singleton hNone]
  rfl

theorem Call.trails (h : Call limit ended bytes failures result rest left) : Trails bytes rest := by
  cases h with
  | line hLine => exact trails_of_line hLine rest
  | long | failure | stalled => exact .refl _
  | last | ended => exact trails_nil _

/-- The reader after some calls. -/
def afterCalls (r : LineReader) (calls : Nat) : LineReader :=
  (fun r => r.readLine.2)^[calls] r

theorem trails_afterCalls (h : r.source.Filled) (hLimit : r.limit.toNat + 1 < UInt64.size)
    (calls : Nat) :
    (r.afterCalls calls).limit = r.limit ∧ (r.afterCalls calls).source.Filled ∧
      Trails r.awaited (r.afterCalls calls).awaited := by
  induction calls with
  | zero => exact ⟨rfl, h, .refl _⟩
  | succ calls ih =>
    obtain ⟨hSame, hFilled, hTrails⟩ := ih
    have hComes := comes_readLine hFilled (hSame ▸ hLimit)
    rw [afterCalls, Function.iterate_succ_apply']
    exact ⟨hComes.continues.limit.trans hSame, hComes.filled,
      hTrails.trans hComes.call.trails⟩

theorem length_of_decode {line : Bytes} (h : decode line = .ok (some text)) :
    (utf8 text).length = line.length := by
  have hTells := tells_decode line
  rw [h] at hTells
  cases hTells with
  | text hText => rw [hText]

theorem length_of_complete {line : Bytes} (h : complete limit line = .ok (some text)) :
    (utf8 text).length ≤ limit.toNat := by
  rw [complete] at h
  split at h
  · cases h
  · rename_i hFits
    exact length_of_decode h ▸ Nat.not_lt.mp hFits

theorem Call.given (h : Call limit ended bytes failures (.ok (some text)) rest left)
    (hLast : newline ∉ bytes → bytes.length ≤ limit.toNat + 1 → bytes.length ≤ last) :
    (utf8 text).length ≤ if newline ∈ bytes then limit.toNat else last := by
  generalize hResult : Result.ok (some text) = result at h
  cases h with
  | line hLine =>
    rw [if_pos (List.mem_append_right _ List.mem_cons_self)]
    exact length_of_complete hResult.symm
  | last _ _ hLine hFits =>
    rw [if_neg hLine]
    exact length_of_decode hResult.symm ▸ hLast hLine hFits
  | long | failure | stalled | ended => cases hResult

/-- The line is refused, or a failure of the stream is reported and the line is left to the next
call, with one failure less to come. -/
def Refusal (limit : UInt64) (bytes : Bytes) (failures : List Fault)
    (result : Result (Option String)) (rest : Bytes) (left : List Fault) : Prop :=
  result = .error (.lineTooLong limit) ∨
    ∃ fault, result = .error (.io fault) ∧ rest = bytes ∧ failures = fault :: left

def Refuses (r : LineReader) (limit : UInt64) : Prop :=
  Refusal limit r.awaited r.source.failures r.readLine.1 r.readLine.2.awaited
    r.readLine.2.source.failures

theorem Call.refused {line tail : Bytes} (h : Call limit ended bytes failures result rest left)
    (hLine : newline ∉ line) (hBytes : bytes = line ++ newline :: tail)
    (hLong : limit.toNat < (dropReturn line).length) :
    Refusal limit bytes failures result rest left := by
  subst hBytes
  rcases h.of_line hLine with ⟨rfl, -⟩ | ⟨-, hResult⟩ | ⟨fault, hFault, hResult, hRest⟩
  · exact .inl (if_pos hLong)
  · exact .inl hResult
  · exact .inr ⟨fault, hResult, hRest, hFault⟩

theorem Call.refusedLast (h : Call limit ended bytes failures result rest left)
    (hNone : newline ∉ bytes) (hLong : last < bytes.length)
    (hLast : newline ∉ bytes → bytes.length ≤ limit.toNat + 1 → bytes.length ≤ last) :
    Refusal limit bytes failures result rest left := by
  cases h with
  | line => exact absurd (List.mem_append_right _ List.mem_cons_self) hNone
  | long => exact .inl rfl
  | failure => exact .inr ⟨_, rfl, rfl, rfl⟩
  | stalled _ _ hFits | last _ _ _ hFits => exact absurd (hLast hNone hFits) (Nat.not_le.mpr hLong)
  | ended => cases hLong

/-- What the call gives is no longer than the limit, and what is longer it refuses. The bytes that
follow the last newline have a bound of their own. -/
structure Keeps (r : LineReader) (limit : UInt64) (last : Nat) : Prop where
  given : ∀ text, r.readLine.1 = .ok (some text) →
    (utf8 text).length ≤ if newline ∈ r.awaited then limit.toNat else last
  refused : ∀ line rest, newline ∉ line → r.awaited = line ++ newline :: rest →
    limit.toNat < (dropReturn line).length → r.Refuses limit
  refusedLast : newline ∉ r.awaited → last < r.awaited.length → r.Refuses limit

theorem keeps (h : r.source.Filled) (hSame : r.limit = limit)
    (hLimit : limit.toNat + 1 < UInt64.size)
    (hLast : newline ∉ r.awaited → r.awaited.length ≤ limit.toNat + 1 →
      r.awaited.length ≤ last) : r.Keeps limit last := by
  subst hSame
  have hCall := (comes_readLine h hLimit).call
  constructor
  · intro text hText
    rw [hText] at hCall
    exact hCall.given hLast
  · intro line rest hLine hAwaited hLong
    exact hCall.refused hLine hAwaited hLong
  · intro hNone hLong
    exact hCall.refusedLast hNone hLong hLast

/-- Whatever arrives, in whatever pieces, no call gives a line that is longer than the limit, and
each that is longer is refused. Only what follows the last newline may be one byte longer; where it
is not exactly that, the limit holds for it too. -/
theorem keeps_afterCalls {source : Source} (h : source.Filled)
    (hLimit : limit.toNat + 1 < UInt64.size) :
    (∀ calls, ((ofSource source limit).afterCalls calls).Keeps limit (limit.toNat + 1)) ∧
      ((∀ piece ∈ (source.bytes.splitOn newline).getLast?, piece.length ≠ limit.toNat + 1) →
        ∀ calls, ((ofSource source limit).afterCalls calls).Keeps limit limit.toNat) := by
  have hCalls := trails_afterCalls (r := ofSource source limit) h hLimit
  constructor
  · intro calls
    obtain ⟨hSame, hFilled, -⟩ := hCalls calls
    exact keeps hFilled hSame hLimit fun _ hFits => hFits
  · intro hPiece calls
    obtain ⟨hSame, hFilled, hTrails⟩ := hCalls calls
    refine keeps hFilled hSame hLimit fun hNone hFits => ?_
    rcases hTrails.of_unbroken hNone with hNil | hLast
    · rw [hNil]
      exact Nat.zero_le _
    · exact Nat.le_of_lt_succ (Nat.lt_of_le_of_ne hFits (hPiece _ hLast))

/-- The second line is too long, and what follows it is not. -/
theorem keeps_of_two_lines :
    Source.Filled ⟨[.data (utf8 "PI"), .fault ⟨.timedOut, ""⟩, .data (utf8 "NG\r\nSET k v\nDBS")],
      true⟩ ∧ (4 : UInt64).toNat + 1 < UInt64.size ∧
    ∀ calls, ((ofSource ⟨[.data (utf8 "PI"), .fault ⟨.timedOut, ""⟩,
      .data (utf8 "NG\r\nSET k v\nDBS")], true⟩ 4).afterCalls calls).Keeps 4 4 :=
  ⟨by decide, by decide, (keeps_afterCalls (by decide) (by decide)).2 (by decide)⟩

/-- Five bytes, and then the end. -/
theorem not_keeps_of_end :
    (ofSource ⟨[.data (utf8 "PING ")], true⟩ 4).readLine.1 = .ok (some "PING ") ∧
      (utf8 "PING ").length = 5 ∧ ¬ (ofSource ⟨[.data (utf8 "PING ")], true⟩ 4).Keeps 4 4 := by
  have hRead : (ofSource ⟨[.data (utf8 "PING ")], true⟩ 4).readLine.1 = .ok (some "PING ") := by
    have hMore : (ofSource ⟨[.data (utf8 "PING ")], true⟩ 4).step =
        .more ⟨⟨[], true⟩, utf8 "PING ", 4⟩ := rfl
    have hDone : step ⟨⟨[], true⟩, utf8 "PING ", 4⟩ =
        .done (.ok (some "PING ")) ⟨⟨[], true⟩, [], 4⟩ := rfl
    rw [readLine_of_more hMore, readLine_of_done hDone]
  refine ⟨hRead, rfl, fun hKeeps => ?_⟩
  have hGiven := hKeeps.given "PING " hRead
  exact absurd hGiven (by decide)

end LineReader
end Keyspace
