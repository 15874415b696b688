import Mathlib.Data.List.TakeWhile
import Keyspace.Stream.Incoming

/-! # Calls: what one call of a reader gives, and what it leaves to the next -/
namespace Keyspace
set_option autoImplicit false

namespace Arrival

def bytes : Arrival → Bytes
  | data bytes => bytes
  | fault _ => []

/-- A read that meets it neither fails for good nor finds an end. -/
def Flows : Arrival → Prop
  | data bytes => bytes ≠ []
  | fault f => f.kind = .interrupted

instance : DecidablePred Flows
  | data bytes => inferInstanceAs (Decidable (bytes ≠ []))
  | fault f => inferInstanceAs (Decidable (f.kind = .interrupted))

/-- The failure that a reader is told of. An interruption it is not told of. -/
def failure? : Arrival → Option Fault
  | data _ => none
  | fault f => if f.kind = .interrupted then none else some f

end Arrival

namespace Source

def bytes (s : Source) : Bytes := s.arrivals.flatMap Arrival.bytes

def Flows (s : Source) : Prop := ∀ a ∈ s.arrivals, a.Flows

instance (s : Source) : Decidable s.Flows := inferInstanceAs (Decidable (∀ a ∈ s.arrivals, a.Flows))

theorem read_data (byte : UInt8) (more : Bytes) (rest : List Arrival) (ended : Bool) :
    ∃ taken left, more = taken ++ left ∧
      (⟨.data (byte :: more) :: rest, ended⟩ : Source).read =
        (.ok (byte :: taken), ⟨(ofBytes left ended).arrivals ++ rest, ended⟩) := by
  by_cases hSize : (byte :: more).length ≤ readSize
  · refine ⟨more, [], (List.append_nil more).symm, ?_⟩
    simp only [Source.read, if_pos hSize]
    rfl
  · refine ⟨more.take (readSize - 1), more.drop (readSize - 1),
      (List.take_append_drop _ more).symm, ?_⟩
    have hDrop : more.drop (readSize - 1) ≠ [] := by
      rw [ne_eq, List.drop_eq_nil_iff]
      simp only [List.length_cons, readSize] at hSize ⊢
      omega
    simp only [Source.read, if_neg hSize, ofBytes, if_neg hDrop]
    rfl

theorem bytes_ofBytes_append (left : Bytes) (rest : List Arrival) (ended : Bool) :
    (⟨(ofBytes left ended).arrivals ++ rest, ended⟩ : Source).bytes =
      left ++ (⟨rest, ended⟩ : Source).bytes := by
  rw [ofBytes]
  split
  · rename_i hLeft
    rw [hLeft]
    rfl
  · rfl

theorem mem_arrivals_ofBytes {left : Bytes} {ended : Bool} {a : Arrival}
    (h : a ∈ (ofBytes left ended).arrivals) : a = .data left ∧ left ≠ [] := by
  rw [ofBytes] at h
  split at h
  · cases h
  · rename_i hLeft
    exact ⟨List.mem_singleton.mp h, hLeft⟩

/-- No read finds an end before the end. -/
def Filled (s : Source) : Prop := .data [] ∉ s.arrivals

instance (s : Source) : Decidable s.Filled := inferInstanceAs (Decidable (_ ∉ _))

def failures (s : Source) : List Fault := s.arrivals.filterMap Arrival.failure?

theorem flows_iff {s : Source} : s.Flows ↔ s.Filled ∧ s.failures = [] := by
  constructor
  · intro h
    refine ⟨fun hMem => h _ hMem rfl, List.filterMap_eq_nil_iff.mpr ?_⟩
    rintro (bytes | fault) hMem
    · rfl
    · exact if_pos (h _ hMem)
  · rintro ⟨hFilled, hFailures⟩ (bytes | fault) hMem
    · rintro rfl
      exact hFilled hMem
    · have hTold := List.filterMap_eq_nil_iff.mp hFailures _ hMem
      by_contra hKind
      exact absurd ((if_neg hKind).symm.trans hTold) (by simp)

theorem Filled.read {s : Source} (h : s.Filled) :
    (s.arrivals = [] ∧ s.read = (if s.ended then .ok [] else .error stalled, s)) ∨
      ∃ t : Source, t.Filled ∧ t.ended = s.ended ∧
        ((∃ fault, s.read = (.error fault, t) ∧ t.bytes = s.bytes ∧
            s.failures = (Arrival.fault fault).failure?.toList ++ t.failures) ∨
          ∃ byte more, s.read = (.ok (byte :: more), t) ∧ byte :: more ++ t.bytes = s.bytes ∧
            s.failures = t.failures) := by
  obtain ⟨arrivals, ended⟩ := s
  cases arrivals with
  | nil => exact .inl ⟨rfl, rfl⟩
  | cons first rest =>
    have hRest : Filled ⟨rest, ended⟩ := fun hMem => h (List.mem_cons_of_mem _ hMem)
    right
    cases first with
    | fault fault =>
      refine ⟨⟨rest, ended⟩, hRest, rfl, .inl ⟨fault, rfl, rfl, ?_⟩⟩
      simp only [failures, List.filterMap_cons]
      cases (Arrival.fault fault).failure? <;> rfl
    | data data =>
      have hData : data ≠ [] := by
        rintro rfl
        exact h List.mem_cons_self
      obtain ⟨byte, more, rfl⟩ := List.exists_cons_of_ne_nil hData
      obtain ⟨taken, left, rfl, hRead⟩ := read_data byte more rest ended
      refine ⟨⟨(ofBytes left ended).arrivals ++ rest, ended⟩, ?_, rfl,
        .inr ⟨byte, taken, hRead, ?_, ?_⟩⟩
      · intro hMem
        rcases List.mem_append.mp hMem with hMem | hMem
        · obtain ⟨hLeft, hNe⟩ := mem_arrivals_ofBytes hMem
          cases hLeft
          exact hNe rfl
        · exact hRest hMem
      · rw [bytes_ofBytes_append, ← List.append_assoc]
        rfl
      · have hNone : (ofBytes left ended).arrivals.filterMap Arrival.failure? = [] := by
          apply List.filterMap_eq_nil_iff.mpr
          intro a ha
          rw [(mem_arrivals_ofBytes ha).1]
          rfl
        simp only [failures, List.filterMap_append, hNone]
        rfl

end Source

namespace LineReader

variable {r next : LineReader} {limit : UInt64} {ended : Bool} {line tail bytes rest : Bytes}
  {failures left : List Fault} {result : Result (Option String)}

theorem splitLine?_eq_none (h : newline ∉ bytes) : splitLine? bytes = none := by
  have hDrop : bytes.dropWhile (· ≠ newline) = [] := by
    apply List.dropWhile_eq_nil_iff.mpr
    intro b hb
    apply decide_eq_true
    rintro rfl
    exact h hb
  rw [splitLine?, hDrop]

theorem splitLine?_append {line : Bytes} (h : newline ∉ line) (rest : Bytes) :
    splitLine? (line ++ newline :: rest) = some (line, rest) := by
  have hLine : ∀ b ∈ line, decide (b ≠ newline) = true := by
    intro b hb
    apply decide_eq_true
    rintro rfl
    exact h hb
  rw [splitLine?, List.dropWhile_append_of_pos hLine, List.dropWhile_cons_of_neg (by simp),
    List.takeWhile_append_of_pos hLine, List.takeWhile_cons_of_neg (by simp), List.append_nil]

theorem length_le_of_newline_not_mem {line bytes more rest : Bytes}
    (hBytes : bytes ++ more = line ++ newline :: rest) (hNewline : newline ∉ bytes) :
    bytes.length ≤ line.length ∧ more ≠ [] := by
  have hLength := congrArg List.length hBytes
  rw [List.length_append, List.length_append, List.length_cons] at hLength
  have hLe : bytes.length ≤ line.length := by
    apply Nat.le_of_not_lt
    intro hLt
    apply hNewline
    have hGet : (bytes ++ more)[line.length]? = (line ++ newline :: rest)[line.length]? := by
      rw [hBytes]
    rw [List.getElem?_append_left hLt, List.getElem?_append_right (Nat.le_refl _),
      Nat.sub_self] at hGet
    exact List.mem_of_getElem? hGet
  constructor
  · exact hLe
  · rintro rfl
    rw [List.length_nil] at hLength
    omega

theorem threshold?_eq {limit : UInt64} (h : limit.toNat + 1 < UInt64.size) :
    ∃ threshold, threshold? limit = some threshold ∧ threshold.toNat = limit.toNat + 1 := by
  refine ⟨limit + 1, if_pos h, ?_⟩
  rw [UInt64.toNat_add]
  exact Nat.mod_eq_of_lt h

theorem step_of_line {line : Bytes} (h : newline ∉ line) (source : Source) (tail : Bytes)
    (limit : UInt64) :
    (⟨source, line ++ newline :: tail, limit⟩ : LineReader).step =
      .done (complete limit (dropReturn line)) ⟨source, tail, limit⟩ := by
  simp only [LineReader.step, splitLine?_append h]

theorem step_of_panic (h : newline ∉ r.buffer) (hLimit : ¬ r.limit.toNat + 1 < UInt64.size) :
    r.step = .done .panic r := by
  simp only [LineReader.step, splitLine?_eq_none h, threshold?, if_neg hLimit]

theorem step_of_long (h : newline ∉ r.buffer) (hLimit : r.limit.toNat + 1 < UInt64.size)
    (hLong : r.limit.toNat + 1 < r.buffer.length) :
    r.step = .done (.error (.lineTooLong r.limit)) r := by
  obtain ⟨threshold, hSome, hThreshold⟩ := threshold?_eq hLimit
  rw [← hThreshold] at hLong
  simp only [LineReader.step, splitLine?_eq_none h, hSome, if_pos hLong]

/-- The buffer holds no line, but what may become one that is not too long. -/
structure Short (r : LineReader) : Prop where
  unbroken : newline ∉ r.buffer
  limit_lt : r.limit.toNat + 1 < UInt64.size
  length_le : r.buffer.length ≤ r.limit.toNat + 1

theorem Short.step_eq (h : r.Short) : r.step = r.readMore := by
  obtain ⟨threshold, hSome, hThreshold⟩ := threshold?_eq h.limit_lt
  have hFits : ¬ threshold.toNat < r.buffer.length := Nat.not_lt.mpr (hThreshold ▸ h.length_le)
  simp only [LineReader.step, splitLine?_eq_none h.unbroken, hSome, if_neg hFits]

theorem Short.step_of_fault {fault : Fault} {source : Source} (h : r.Short)
    (hRead : r.source.read = (.error fault, source)) :
    r.step = if fault.kind = .interrupted then .more { r with source }
      else .done (.error (.io fault)) { r with source } := by
  rw [h.step_eq, readMore, hRead]

theorem Short.step_of_end {source : Source} (h : r.Short)
    (hRead : r.source.read = (.ok [], source)) :
    r.step = if r.buffer = [] then .done (.ok none) { r with source }
      else .done (decode r.buffer) { r with source, buffer := [] } := by
  rw [h.step_eq, readMore, hRead]

theorem Short.step_of_bytes {byte : UInt8} {more : Bytes} {source : Source} (h : r.Short)
    (hRead : r.source.read = (.ok (byte :: more), source)) :
    r.step = .more { r with source, buffer := r.buffer ++ byte :: more } := by
  rw [h.step_eq, readMore, hRead]

/-- Reading leaves the limit as it is, and a stream that is open or has ended. -/
structure Continues (r next : LineReader) : Prop where
  limit : next.limit = r.limit
  ended : next.source.ended = r.source.ended

theorem Continues.refl (r : LineReader) : r.Continues r := ⟨rfl, rfl⟩

theorem Continues.trans {r next last : LineReader} (h : r.Continues next)
    (hLast : next.Continues last) : r.Continues last :=
  ⟨hLast.limit.trans h.limit, hLast.ended.trans h.ended⟩

/-- The bytes that are still to be taken, those in the buffer first. -/
def awaited (r : LineReader) : Bytes := r.buffer ++ r.source.bytes

/-- What a call gives where these bytes and failures are to come, and what it leaves of them. The
beginning of a line may be one byte longer than the limit: a return may be at its end. -/
inductive Call (limit : UInt64) (ended : Bool) :
    Bytes → List Fault → Result (Option String) → Bytes → List Fault → Prop
  | line {line rest : Bytes} {failures : List Fault} (hLine : newline ∉ line) :
      Call limit ended (line ++ newline :: rest) failures (complete limit (dropReturn line)) rest
        failures
  | long {line rest : Bytes} {failures : List Fault} (hLine : newline ∉ line)
      (hLong : limit.toNat + 1 < line.length) :
      Call limit ended (line ++ rest) failures (.error (.lineTooLong limit)) (line ++ rest) failures
  | failure {bytes : Bytes} {fault : Fault} {failures : List Fault} :
      Call limit ended bytes (fault :: failures) (.error (.io fault)) bytes failures
  | stalled {bytes : Bytes} {failures : List Fault} (hOpen : ended = false)
      (hNone : newline ∉ bytes) (hFits : bytes.length ≤ limit.toNat + 1) :
      Call limit ended bytes failures (.error (.io Source.stalled)) bytes failures
  | last {line : Bytes} {failures : List Fault} (hEnded : ended = true) (hNe : line ≠ [])
      (hLine : newline ∉ line) (hFits : line.length ≤ limit.toNat + 1) :
      Call limit ended line failures (decode line) [] failures
  | ended {failures : List Fault} (hEnded : ended = true) :
      Call limit ended [] failures (.ok none) [] failures

/-- Where a line comes next, it is taken, or it is too long already, or the stream fails. -/
theorem Call.of_line (h : Call limit ended (line ++ newline :: tail) failures result rest left)
    (hLine : newline ∉ line) :
    (result = complete limit (dropReturn line) ∧ rest = tail ∧ left = failures) ∨
      (limit.toNat + 1 < line.length ∧ result = .error (.lineTooLong limit)) ∨
      ∃ fault, failures = fault :: left ∧ result = .error (.io fault) ∧
        rest = line ++ newline :: tail := by
  have hMem : newline ∈ line ++ newline :: tail := List.mem_append_right _ List.mem_cons_self
  generalize hBytes : line ++ newline :: tail = bytes at h hMem ⊢
  cases h with
  | line hFirst =>
    have hSplit := splitLine?_append hLine tail
    rw [hBytes, splitLine?_append hFirst, Option.some.injEq, Prod.mk.injEq] at hSplit
    obtain ⟨rfl, rfl⟩ := hSplit
    exact .inl ⟨rfl, rfl, rfl⟩
  | long hFirst hLong =>
    have hLe := (length_le_of_newline_not_mem hBytes.symm hFirst).1
    exact .inr (.inl ⟨Nat.lt_of_lt_of_le hLong hLe, rfl⟩)
  | failure => exact .inr (.inr ⟨_, rfl, rfl, rfl⟩)
  | stalled _ hNone | last _ _ hNone => exact absurd hMem hNone
  | ended => cases hMem

/-- The reader gives this result, and no read after it finds an end before the end. -/
structure Comes (r : LineReader) (result : Result (Option String)) (next : LineReader) :
    Prop where
  continues : r.Continues next
  filled : next.source.Filled
  call : Call r.limit r.source.ended r.awaited r.source.failures result next.awaited
    next.source.failures

/-- The reader has taken bytes into its buffer, or was interrupted. -/
structure Gathers (r next : LineReader) : Prop where
  continues : r.Continues next
  filled : next.source.Filled
  awaited : next.awaited = r.awaited
  failures : next.source.failures = r.source.failures

theorem Gathers.comes {other : LineReader} (h : r.Gathers next)
    (hNext : next.Comes result other) : r.Comes result other := by
  obtain ⟨hContinues, hFilled, hCall⟩ := hNext
  rw [h.continues.limit, h.continues.ended, h.awaited, h.failures] at hCall
  exact ⟨h.continues.trans hContinues, hFilled, hCall⟩

theorem comes_of_line (h : r.source.Filled) (hMem : newline ∈ r.buffer) :
    ∃ result next, r.step = .done result next ∧ r.Comes result next := by
  obtain ⟨source, buffer, limit⟩ := r
  obtain ⟨line, tail, rfl, hLine⟩ := List.eq_append_cons_of_mem hMem
  have hAwaited : awaited ⟨source, line ++ newline :: tail, limit⟩ =
      line ++ newline :: awaited ⟨source, tail, limit⟩ := by
    rw [awaited, awaited, List.append_assoc, List.cons_append]
  refine ⟨_, _, step_of_line hLine source tail limit, ⟨rfl, rfl⟩, h, ?_⟩
  rw [hAwaited]
  exact .line hLine

theorem comes_of_long (h : r.source.Filled) (hMem : newline ∉ r.buffer)
    (hLong : r.limit.toNat + 1 < r.buffer.length) (hLimit : r.limit.toNat + 1 < UInt64.size) :
    ∃ result next, r.step = .done result next ∧ r.Comes result next :=
  ⟨_, r, step_of_long hMem hLimit hLong, .refl r, h, .long hMem hLong⟩

theorem Short.comes_of_none (h : r.Short) (hArrivals : r.source.arrivals = []) :
    ∃ result next, r.step = .done result next ∧ r.Comes result next := by
  obtain ⟨⟨arrivals, ended⟩, buffer, limit⟩ := r
  simp only at hArrivals
  subst hArrivals
  have hAwaited : awaited ⟨⟨[], ended⟩, buffer, limit⟩ = buffer := List.append_nil buffer
  have hFits : buffer.length ≤ limit.toNat + 1 := h.length_le
  cases ended with
  | false =>
    refine ⟨_, _, h.step_of_fault rfl, ⟨rfl, rfl⟩, List.not_mem_nil, ?_⟩
    rw [hAwaited]
    exact .stalled rfl h.unbroken hFits
  | true =>
    by_cases hBuffer : buffer = []
    · subst hBuffer
      exact ⟨_, _, h.step_of_end rfl, ⟨rfl, rfl⟩, List.not_mem_nil, .ended rfl⟩
    · refine ⟨_, _, (h.step_of_end rfl).trans (if_neg hBuffer), ⟨rfl, rfl⟩, List.not_mem_nil, ?_⟩
      rw [hAwaited]
      exact .last rfl hBuffer h.unbroken hFits

theorem Short.step_cases (h : r.Short) (hFilled : r.source.Filled) :
    (∃ next, r.step = .more next ∧ r.Gathers next) ∨
      ∃ result next, r.step = .done result next ∧ r.Comes result next := by
  rcases hFilled.read with ⟨hArrivals, -⟩ |
    ⟨left, hLeft, hSame, ⟨fault, hRead, hBytes, hFailures⟩ | ⟨byte, more, hRead, hBytes, hFailures⟩⟩
  · exact .inr (h.comes_of_none hArrivals)
  · have hStep := h.step_of_fault hRead
    have hAwaited : r.awaited = r.buffer ++ left.bytes := by rw [hBytes, awaited]
    by_cases hFault : fault.kind = .interrupted
    · rw [Arrival.failure?, if_pos hFault] at hFailures
      exact .inl ⟨_, hStep.trans (if_pos hFault), ⟨rfl, hSame⟩, hLeft, hAwaited.symm,
        hFailures.symm⟩
    · rw [Arrival.failure?, if_neg hFault] at hFailures
      refine .inr ⟨_, _, hStep.trans (if_neg hFault), ⟨rfl, hSame⟩, hLeft, ?_⟩
      rw [hAwaited, hFailures]
      exact .failure
  · refine .inl ⟨_, h.step_of_bytes hRead, ⟨rfl, hSame⟩, hLeft, ?_, hFailures.symm⟩
    rw [awaited, awaited, List.append_assoc, hBytes]

theorem step_cases (h : r.source.Filled) (hLimit : r.limit.toNat + 1 < UInt64.size) :
    (∃ next, r.step = .more next ∧ r.Gathers next) ∨
      ∃ result next, r.step = .done result next ∧ r.Comes result next := by
  by_cases hMem : newline ∈ r.buffer
  · exact .inr (comes_of_line h hMem)
  · by_cases hLong : r.limit.toNat + 1 < r.buffer.length
    · exact .inr (comes_of_long h hMem hLong hLimit)
    · exact Short.step_cases ⟨hMem, hLimit, Nat.not_lt.mp hLong⟩ h

theorem comes_readLine (h : r.source.Filled) (hLimit : r.limit.toNat + 1 < UInt64.size) :
    r.Comes r.readLine.1 r.readLine.2 := by
  fun_induction readLine r with
  | case1 r result next hDone =>
    rcases step_cases h hLimit with ⟨other, hMore, -⟩ | ⟨result, next, hStep, hComes⟩
    · cases hDone.symm.trans hMore
    · cases hDone.symm.trans hStep
      exact hComes
  | case2 r next hMore ih =>
    rcases step_cases h hLimit with ⟨next, hStep, hGathers⟩ | ⟨result, other, hStep, -⟩
    · cases hMore.symm.trans hStep
      exact hGathers.comes (ih hGathers.filled (hGathers.continues.limit ▸ hLimit))
    · cases hMore.symm.trans hStep

end LineReader
end Keyspace
