import Keyspace.Result
import Keyspace.Stream.Source

/-! # Line readers: the lines of a stream, of which none may be too long -/
namespace Keyspace
set_option autoImplicit false

/-- A stream and the bytes that were read from it and belong to no line yet. -/
structure LineReader where
  source : Source
  buffer : Bytes
  limit : UInt64
  deriving DecidableEq, Repr, Inhabited

namespace LineReader

def newline : UInt8 := 10
def carriageReturn : UInt8 := 13

def ofSource (source : Source) (limit : UInt64) : LineReader := ⟨source, [], limit⟩

def splitLine? (bytes : Bytes) : Option (Bytes × Bytes) :=
  match bytes.dropWhile (· ≠ newline) with
  | [] => none
  | _ :: rest => some (bytes.takeWhile (· ≠ newline), rest)

def dropReturn (line : Bytes) : Bytes :=
  if line.getLast? = some carriageReturn then line.dropLast else line

def decode (line : Bytes) : Result (Option String) :=
  match Text.ofUtf8? line with
  | some text => .ok (some text)
  | none => .error .lineNotUtf8

def complete (limit : UInt64) (line : Bytes) : Result (Option String) :=
  if limit.toNat < line.length then .error (.lineTooLong limit) else decode line

/-- The most bytes that may wait for their newline: a line and a carriage return. The sum is
checked, and out of range for the greatest limit. -/
def threshold? (limit : UInt64) : Option UInt64 :=
  if limit.toNat + 1 < UInt64.size then some (limit + 1) else none

/-- What comes of one look at the buffer and, if that does not settle it, one read. -/
inductive Step where
  | done (result : Result (Option String)) (next : LineReader)
  | more (next : LineReader)

/-- One read, where the buffer holds the beginning of a line. What is left at the end of the stream is
a line too. -/
def readMore (r : LineReader) : Step :=
  match r.source.read with
  | (.error fault, source) =>
    if fault.kind = .interrupted then .more { r with source }
    else .done (.error (.io fault)) { r with source }
  | (.ok [], source) =>
    if r.buffer = [] then .done (.ok none) { r with source }
    else .done (decode r.buffer) { r with source, buffer := [] }
  | (.ok (byte :: bytes), source) =>
    .more { r with source, buffer := r.buffer ++ byte :: bytes }

/-- A line in the buffer is taken from it. The beginning of one that is too long already stays where
it is, and to any other more is read. -/
def step (r : LineReader) : Step :=
  match splitLine? r.buffer with
  | some (line, rest) => .done (complete r.limit (dropReturn line)) { r with buffer := rest }
  | none =>
    match threshold? r.limit with
    | none => .done .panic r
    | some threshold =>
      if threshold.toNat < r.buffer.length then .done (.error (.lineTooLong r.limit)) r
      else r.readMore

/-- A step that is not the last one has read. -/
theorem readMore_of_step_more {r t : LineReader} (h : r.step = .more t) : r.readMore = .more t := by
  simp only [step] at h
  split at h
  · cases h
  · split at h
    · cases h
    · split at h
      · cases h
      · exact h

theorem weight_step_more {r t : LineReader} (h : r.step = .more t) :
    t.source.weight < r.source.weight := by
  have hRead := readMore_of_step_more h
  simp only [readMore] at hRead
  split at hRead
  · rename_i fault source hFault
    split at hRead
    · rename_i hKind
      cases hRead
      exact Source.weight_read_error_lt hFault hKind
    · cases hRead
  · split at hRead <;> cases hRead
  · rename_i byte bytes source hBytes
    cases hRead
    exact Source.weight_read_ok_lt hBytes (by simp)

def readLine (r : LineReader) : Result (Option String) × LineReader :=
  match _hStep : r.step with
  | .done result next => (result, next)
  | .more next => next.readLine
termination_by r.source.weight
decreasing_by exact weight_step_more _hStep

def weight (r : LineReader) : Nat := r.source.weight + r.buffer.length

theorem length_lt_of_splitLine? {bytes line rest : Bytes}
    (h : splitLine? bytes = some (line, rest)) : rest.length < bytes.length := by
  have hSplit := congrArg List.length (List.takeWhile_append_dropWhile
    (p := (· ≠ newline)) (l := bytes))
  rw [List.length_append] at hSplit
  simp only [splitLine?] at h
  split at h
  · cases h
  · rename_i first rest' hRest
    cases h
    rw [hRest, List.length_cons] at hSplit
    omega

theorem weight_readMore_line {r t : LineReader} {line : String}
    (h : r.readMore = .done (.ok (some line)) t) : t.weight < r.weight := by
  simp only [readMore] at h
  split at h
  · split at h <;> cases h
  · rename_i source hRead
    split at h
    · cases h
    · rename_i hBuffer
      cases (Step.done.inj h).2
      have hWeight := Source.weight_read_ok hRead
      have hPos : 0 < r.buffer.length := List.length_pos_iff.mpr hBuffer
      simp only [weight, List.length_nil] at *
      omega
  · cases h

/-- A step that gives a line takes something off the weight, and any other adds nothing to it. -/
theorem weight_step_line {r t : LineReader} {line : String}
    (h : r.step = .done (.ok (some line)) t) : t.weight < r.weight := by
  simp only [step] at h
  split at h
  · rename_i piece rest hSplit
    cases (Step.done.inj h).2
    have hRest := length_lt_of_splitLine? hSplit
    simp only [weight]
    omega
  · split at h
    · cases h
    · split at h
      · cases h
      · exact weight_readMore_line h

theorem weight_step_more_le {r t : LineReader} (h : r.step = .more t) : t.weight ≤ r.weight := by
  have hMore := readMore_of_step_more h
  simp only [readMore] at hMore
  split at hMore
  · rename_i fault source hRead
    split at hMore
    · rename_i hFault
      cases hMore
      have hWeight := Source.weight_read_error_lt hRead hFault
      simp only [weight]
      omega
    · cases hMore
  · split at hMore <;> cases hMore
  · rename_i byte bytes source hRead
    cases hMore
    have hWeight := Source.weight_read_ok hRead
    simp only [weight, List.length_append] at *
    omega

theorem weight_readLine_lt {r t : LineReader} {line : String}
    (h : r.readLine = (.ok (some line), t)) : t.weight < r.weight := by
  fun_induction readLine r with
  | case1 r result next hStep =>
    cases h
    exact weight_step_line hStep
  | case2 r next hStep ih =>
    exact Nat.lt_of_lt_of_le (ih h) (weight_step_more_le hStep)

end LineReader
end Keyspace
