import Keyspace.Proofs.Stream.Waiting

/-! # The buffer: it has a bound, and nothing is read from the stream while it holds a line -/
namespace Keyspace
open Text
set_option autoImplicit false

theorem Source.length_read_le {s t : Source} {bytes : Bytes} (h : s.read = (.ok bytes, t)) :
    bytes.length ≤ readSize := by
  rw [read] at h
  split at h
  · split at h <;> cases h
    exact Nat.zero_le _
  · cases h
  · split at h <;> cases h
    · assumption
    · exact List.length_take_le _ _

namespace LineReader

variable {r next : LineReader} {limit : UInt64} {buffer line : Bytes} {lines : List Bytes}

/-- The buffer alone settles what a look at it gives: whatever the stream would bring, the look
gives the same, and it leaves the stream as it is. A look that is not settled so is one that
reads. -/
def Settled (r : LineReader) : Prop :=
  ∃ result rest, ∀ source, step { r with source } = .done result { r with source, buffer := rest }

theorem exists_line (h : newline ∈ r.buffer) :
    ∃ line rest, newline ∉ line ∧ r.buffer = line ++ newline :: rest ∧
      ∀ source, step { r with source } =
        .done (complete r.limit (dropReturn line)) { r with source, buffer := rest } := by
  obtain ⟨line, rest, hBuffer, hLine⟩ := List.eq_append_cons_of_mem h
  refine ⟨line, rest, hLine, hBuffer, fun source => ?_⟩
  rw [hBuffer]
  exact step_of_line hLine source rest r.limit

theorem settled_of_line (h : newline ∈ r.buffer) : r.Settled := by
  obtain ⟨line, rest, -, -, hStep⟩ := exists_line h
  exact ⟨_, rest, hStep⟩

theorem settled_of_panic (h : newline ∉ r.buffer) (hLimit : ¬ r.limit.toNat + 1 < UInt64.size) :
    r.Settled :=
  ⟨.panic, r.buffer, fun source => step_of_panic (r := { r with source }) h hLimit⟩

theorem settled_of_long (h : newline ∉ r.buffer) (hLimit : r.limit.toNat + 1 < UInt64.size)
    (hLong : r.limit.toNat + 1 < r.buffer.length) : r.Settled :=
  ⟨.error (.lineTooLong r.limit), r.buffer, fun source =>
    step_of_long (r := { r with source }) h hLimit hLong⟩

/-- Where the stream would bring a byte, the look would not be the last one. -/
theorem Short.not_settled (h : r.Short) : ¬ r.Settled := by
  rintro ⟨result, rest, hStep⟩
  have hShort : Short { r with source := ⟨[.data [newline]], true⟩ } := ⟨h.unbroken, h.limit_lt, h.length_le⟩
  cases (hShort.step_of_bytes rfl).symm.trans (hStep _)

theorem not_settled_iff : ¬ r.Settled ↔ r.Short := by
  constructor
  · intro h
    have hMem : newline ∉ r.buffer := fun hMem => h (settled_of_line hMem)
    have hLimit : r.limit.toNat + 1 < UInt64.size :=
      Classical.not_not.mp fun hLimit => h (settled_of_panic hMem hLimit)
    exact ⟨hMem, hLimit, Nat.not_lt.mp fun hLong => h (settled_of_long hMem hLimit hLong)⟩
  · exact Short.not_settled

theorem short_iff (h : r.limit.toNat + 1 < UInt64.size) :
    r.Short ↔ newline ∉ r.buffer ∧ r.buffer.length ≤ r.limit.toNat + 1 := by
  constructor
  · intro hShort
    exact ⟨hShort.unbroken, hShort.length_le⟩
  · rintro ⟨hMem, hFits⟩
    exact ⟨hMem, h, hFits⟩

/-- A look that reads does so once, and adds no more to the buffer than one read brings. -/
theorem Short.step_reads (h : r.Short) :
    r.step.next.source = r.source.read.2 ∧
      r.step.next.buffer.length ≤ r.buffer.length + Source.readSize := by
  rcases hRead : r.source.read with ⟨fault | _ | ⟨byte, more⟩, source⟩
  · rw [h.step_of_fault hRead]
    split <;> exact ⟨rfl, Nat.le_add_right _ _⟩
  · rw [h.step_of_end hRead]
    split
    · exact ⟨rfl, Nat.le_add_right _ _⟩
    · exact ⟨rfl, Nat.zero_le _⟩
  · have hLength := Source.length_read_le hRead
    rw [h.step_of_bytes hRead]
    simp only [Step.next, List.length_append, true_and]
    omega

theorem length_step_le (hLimit : r.limit.toNat + 1 < UInt64.size)
    (h : r.buffer.length ≤ r.limit.toNat + 1 + Source.readSize) :
    r.step.next.buffer.length ≤ r.limit.toNat + 1 + Source.readSize := by
  by_cases hMem : newline ∈ r.buffer
  · obtain ⟨line, rest, -, hBuffer, hStep⟩ := exists_line hMem
    rw [hBuffer, List.length_append, List.length_cons] at h
    have hRest : r.step.next.buffer = rest := by rw [hStep r.source, Step.next]
    rw [hRest]
    omega
  · by_cases hLong : r.limit.toNat + 1 < r.buffer.length
    · rw [step_of_long hMem hLimit hLong]
      exact h
    · have hShort : r.Short := ⟨hMem, hLimit, Nat.not_lt.mp hLong⟩
      have hAdds := hShort.step_reads.2
      have hFits := hShort.length_le
      omega

theorem LooksTo.length_le (h : r.LooksTo next) (hLimit : r.limit.toNat + 1 < UInt64.size)
    (hRoom : r.buffer.length ≤ r.limit.toNat + 1 + Source.readSize) :
    next.buffer.length ≤ r.limit.toNat + 1 + Source.readSize := by
  induction h with
  | refl => exact hRoom
  | look _ ih =>
    have hStep := length_step_le hLimit hRoom
    -- The bound is that of the limit, which a look leaves as it is.
    rw [← (continues_step _).limit] at hStep hLimit ⊢
    exact ih hLimit hStep

/-- What is taken from a reader: a line, a request, or the reply to a request with some verb. -/
inductive Demand where
  | line
  | request
  | reply (verb : Option Verb)
  deriving DecidableEq, Repr

def meet (r : LineReader) : Demand → Result (Option String) × LineReader
  | .line => r.readLine
  | .request => r.readRequest
  | .reply verb => ((r.readReply verb).1.map some, (r.readReply verb).2)

/-- The reader after one demand and then another, whatever comes of them. -/
def afterDemands (r : LineReader) (demands : List Demand) : LineReader :=
  demands.foldl (fun r demand => (r.meet demand).2) r

theorem looksTo_meet (r : LineReader) (demand : Demand) : r.LooksTo (r.meet demand).2 := by
  cases demand with
  | line => exact looksTo_readLine r
  | request => exact looksTo_readRequest r
  | reply verb => exact looksTo_readReply r verb

theorem looksTo_afterDemands (r : LineReader) (demands : List Demand) :
    r.LooksTo (r.afterDemands demands) := by
  induction demands generalizing r with
  | nil => exact .refl r
  | cons demand demands ih => exact (looksTo_meet r demand).trans (ih _)

/-- The lines of these bytes that have a newline at their end. -/
def received (buffer : Bytes) : List Bytes := (buffer.splitOn newline).dropLast

theorem received_append (h : newline ∉ line) (rest : Bytes) :
    received (line ++ newline :: rest) = line :: received rest := by
  rw [received, List.splitOn_append_cons_self_of_not_mem h,
    List.dropLast_cons_of_ne_nil (List.splitOn_ne_nil newline rest), received]

theorem received_eq_nil (h : newline ∉ buffer) : received buffer = [] := by
  rw [received, List.splitOn_eq_singleton h]
  rfl

/-- The buffer alone settles what is taken and what is left, and nothing is read from the stream. -/
def SettledFor {α : Type} (r : LineReader) (take : LineReader → α × LineReader) : Prop :=
  ∃ result rest, ∀ source, take { r with source } = (result, { r with source, buffer := rest })

/-- The first line in the buffer is taken from it, with nothing from the stream. -/
theorem exists_readLine (h : received r.buffer = line :: lines) :
    ∃ rest, received rest = lines ∧ ∀ source, readLine { r with source } =
      (complete r.limit (dropReturn line), { r with source, buffer := rest }) := by
  by_cases hMem : newline ∈ r.buffer
  · obtain ⟨first, rest, hFirst, hBuffer, hStep⟩ := exists_line hMem
    rw [hBuffer, received_append hFirst] at h
    cases h
    exact ⟨rest, rfl, fun source => readLine_of_done (hStep source)⟩
  · cases (received_eq_nil hMem).symm.trans h

theorem settledFor_readLine (h : received r.buffer ≠ []) : r.SettledFor readLine := by
  obtain ⟨line, lines, hLines⟩ := List.exists_cons_of_ne_nil h
  obtain ⟨rest, -, hRead⟩ := exists_readLine hLines
  exact ⟨_, rest, hRead⟩

theorem settledFor_readRequest
    (h : ∃ line ∈ received r.buffer, ∀ text,
      complete r.limit (dropReturn line) = .ok (some text) → isBlank text = false) :
    r.SettledFor readRequest := by
  induction hLines : received r.buffer generalizing r with
  | nil =>
    rw [hLines] at h
    obtain ⟨line, hLine, -⟩ := h
    cases hLine
  | cons first lines ih =>
    obtain ⟨rest, hRest, hRead⟩ := exists_readLine hLines
    rw [hLines] at h
    obtain ⟨line, hLine, hText⟩ := h
    rcases hFirst : complete r.limit (dropReturn first) with e | (_ | text) | _
    · exact ⟨.error e, rest, fun source => by rw [readRequest_eq, hRead, hFirst]⟩
    · exact ⟨.ok none, rest, fun source => by rw [readRequest_eq, hRead, hFirst]⟩
    · rw [hFirst] at hRead
      cases hBlank : isBlank text with
      | false =>
        exact ⟨.ok (some text), rest, fun source => readRequest_of_not_blank (hRead source) hBlank⟩
      | true =>
        -- A blank line is passed over: the one that is not blank comes after it.
        rcases List.mem_cons.mp hLine with rfl | hLine
        · cases (hText text hFirst).symm.trans hBlank
        · obtain ⟨result, last, hRequest⟩ :=
            ih (r := { r with buffer := rest }) ⟨line, hRest ▸ hLine, hText⟩ hRest
          exact ⟨result, last, fun source =>
            (readRequest_of_blank (hRead source) hBlank).trans (hRequest source)⟩
    · exact ⟨.panic, rest, fun source => by rw [readRequest_eq, hRead, hFirst]⟩

theorem settledFor_readBody {count : Nat} (h : count ≤ (received r.buffer).length) :
    r.SettledFor (readBody count) := by
  induction count generalizing r with
  | zero => exact ⟨.ok [], r.buffer, fun _ => rfl⟩
  | succ count ih =>
    obtain ⟨line, lines, hLines⟩ := List.exists_cons_of_length_pos (Nat.zero_lt_of_lt h)
    obtain ⟨rest, hRest, hRead⟩ := exists_readLine hLines
    have hMore : count ≤ (received rest).length := by
      rw [hLines, List.length_cons] at h
      exact hRest ▸ Nat.le_of_succ_le_succ h
    obtain ⟨body, last, hBody⟩ := ih (r := { r with buffer := rest }) hMore
    rcases hLine : complete r.limit (dropReturn line) with e | (_ | text) | _
    · exact ⟨.error e, rest, fun source => by rw [readBody, hRead, hLine]⟩
    · exact ⟨.error .closedMidReply, rest, fun source => by rw [readBody, hRead, hLine]⟩
    · exact ⟨body.map (text :: ·), last, fun source => by
        simp only [readBody, hRead, hLine, hBody]⟩
    · exact ⟨.panic, rest, fun source => by rw [readBody, hRead, hLine]⟩

theorem settledFor_readReply {verb : Option Verb} (hLines : received r.buffer = line :: lines)
    (h : ∀ text, complete r.limit (dropReturn line) = .ok (some text) →
      bodyLength verb text ≤ lines.length) : r.SettledFor (readReply · verb) := by
  obtain ⟨rest, hRest, hRead⟩ := exists_readLine hLines
  rcases hLine : complete r.limit (dropReturn line) with e | (_ | text) | _
  · exact ⟨.error e, rest, fun source => by simp only [readReply, hRead, hLine]⟩
  · exact ⟨.error .closedBeforeReply, rest, fun source => by simp only [readReply, hRead, hLine]⟩
  · obtain ⟨body, last, hBody⟩ :=
      settledFor_readBody (r := { r with buffer := rest }) (hRest ▸ h text hLine)
    exact ⟨body.map fun lines => "\n".intercalate (text :: lines), last, fun source => by
      simp only [readReply, hRead, hLine, hBody]⟩
  · exact ⟨.panic, rest, fun source => by simp only [readReply, hRead, hLine]⟩

/-- All that the demand takes is among these lines: for a request one that is not passed over as
blank, and for a reply the first line and as many after it as that one says. -/
def Demand.Takes (limit : UInt64) (lines : List Bytes) : Demand → Prop
  | .line => lines ≠ []
  | .request => ∃ line ∈ lines, ∀ text,
      complete limit (dropReturn line) = .ok (some text) → isBlank text = false
  | .reply verb => ∃ first body, lines = first :: body ∧ ∀ text,
      complete limit (dropReturn first) = .ok (some text) → bodyLength verb text ≤ body.length

theorem settledFor_meet {demand : Demand} (h : demand.Takes r.limit (received r.buffer)) :
    r.SettledFor (meet · demand) := by
  cases demand with
  | line => exact settledFor_readLine h
  | request => exact settledFor_readRequest h
  | reply verb =>
    obtain ⟨first, body, hLines, hFits⟩ := h
    obtain ⟨result, rest, hReply⟩ := settledFor_readReply hLines hFits
    exact ⟨result.map some, rest, fun source => by simp only [meet, hReply]⟩

theorem meet_of_long (h : newline ∉ r.buffer) (hLimit : r.limit.toNat + 1 < UInt64.size)
    (hLong : r.limit.toNat + 1 < r.buffer.length) (demand : Demand) :
    r.meet demand = (.error (.lineTooLong r.limit), r) := by
  have hRead := readLine_of_done (step_of_long h hLimit hLong)
  cases demand with
  | line => exact hRead
  | request => rw [meet, readRequest_eq, hRead]
  | reply verb =>
    rw [meet, readReply, hRead]
    rfl

/-- A reader that holds no more than it has to, and reads only where it has to. -/
structure Frugal (r : LineReader) (limit : UInt64) : Prop where
  length_le : r.buffer.length ≤ limit.toNat + 1 + Source.readSize
  /-- A look reads exactly where the buffer holds no line, nor the beginning of one that is too
  long. -/
  reads_iff : ¬ r.Settled ↔ newline ∉ r.buffer ∧ r.buffer.length ≤ limit.toNat + 1
  reads_once : ¬ r.Settled → r.step.next.source = r.source.read.2
  taken : ∀ line lines, received r.buffer = line :: lines →
    ∃ rest, received rest = lines ∧ ∀ source, readLine { r with source } =
      (complete limit (dropReturn line), { r with source, buffer := rest })
  met : ∀ demand : Demand, demand.Takes limit (received r.buffer) → r.SettledFor (meet · demand)
  refused : newline ∉ r.buffer → limit.toNat + 1 < r.buffer.length → ∀ demand source,
    meet { r with source } demand = (.error (.lineTooLong limit), { r with source })

theorem frugal (hSame : r.limit = limit) (hLimit : limit.toNat + 1 < UInt64.size)
    (hRoom : r.buffer.length ≤ limit.toNat + 1 + Source.readSize) : r.Frugal limit := by
  subst hSame
  constructor
  · exact hRoom
  · rw [not_settled_iff, short_iff hLimit]
  · intro hReads
    exact (not_settled_iff.mp hReads).step_reads.1
  · intro line lines hLines
    exact exists_readLine hLines
  · intro demand hTakes
    exact settledFor_meet hTakes
  · intro hMem hLong demand source
    exact meet_of_long (r := { r with source }) hMem hLimit hLong demand

/-- Whatever has been demanded of a reader, and whatever came of it: at each look that follows, the
buffer is within its bound, and the stream is read only where the buffer holds no line. What is
demanded next is met by such looks alone. -/
theorem frugal_afterDemands (source : Source) (hLimit : limit.toNat + 1 < UInt64.size)
    (demands : List Demand) :
    (∀ moment, ((ofSource source limit).afterDemands demands).LooksTo moment →
        moment.Frugal limit) ∧
      ∀ demand, ((ofSource source limit).afterDemands demands).LooksTo
        (((ofSource source limit).afterDemands demands).meet demand).2 := by
  constructor
  · intro moment hMoment
    have hLooks := (looksTo_afterDemands (ofSource source limit) demands).trans hMoment
    exact frugal hLooks.continues.limit hLimit (hLooks.length_le hLimit (Nat.zero_le _))
  · intro demand
    exact looksTo_meet _ demand

/-- A peer that sends no newline, and at once more than the limit. -/
theorem frugal_of_unbroken :
    (4 : UInt64).toNat + 1 < UInt64.size ∧
      ((ofSource ⟨[.data (utf8 "PINGPING"), .fault ⟨.timedOut, ""⟩, .data (utf8 "PING")], false⟩
        4).afterDemands [.request, .reply (some .lrange), .line]).Frugal 4 :=
  ⟨by decide, (frugal_afterDemands _ (by decide) _).1 _ (.refl _)⟩

end LineReader
end Keyspace
