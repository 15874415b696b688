import Mathlib.Tactic.Common
import Keyspace.Stream.Sink

/-! # Sending: a sink that goes on taking bytes gets a text whole, in however many writes -/
namespace Keyspace.Sink
open Text
set_option autoImplicit false

/-- Every write takes something, and no flush fails. -/
structure Takes (s : Sink) : Prop where
  step : s.step ≠ some 0
  capacity : s.capacity = none
  flush : s.flushFails = false

theorem takes_unlimited : unlimited.Takes := ⟨nofun, rfl, rfl⟩

theorem capacity_write (s : Sink) (bytes : Bytes) : (s.write bytes).2.capacity = s.capacity := by
  rw [write]
  split <;> rfl

theorem capacity_writeAll (s : Sink) (bytes : Bytes) :
    (s.writeAll bytes).2.capacity = s.capacity := by
  fun_induction writeAll s bytes with
  | case1 s => rfl
  | case2 s byte rest fault next hWrite | case3 s byte rest next hWrite =>
    have hCapacity := s.capacity_write (byte :: rest)
    rwa [hWrite] at hCapacity
  | case4 s byte rest count next hWrite ih =>
    have hCapacity := s.capacity_write (byte :: rest)
    rw [hWrite] at hCapacity
    exact ih.trans hCapacity

theorem capacity_send (s : Sink) (text : String) : (s.send text).2.capacity = s.capacity := by
  have hCapacity := s.capacity_writeAll (utf8 text)
  rw [send]
  split <;> rename_i hWrite <;> rw [hWrite] at hCapacity
  · exact hCapacity
  · exact hCapacity

variable {s : Sink}

theorem Takes.write (h : s.Takes) {bytes : Bytes} (hBytes : bytes ≠ []) :
    ∃ count < bytes.length, s.write bytes =
      (.ok (count + 1), { s with written := s.written ++ bytes.take (count + 1) }) := by
  have hPos : 0 < s.accepted bytes.length := by
    have hLength : 0 < bytes.length := List.length_pos_iff.mpr hBytes
    simp only [accepted, h.capacity]
    split
    · rename_i step hStep
      have hStep : step ≠ 0 := fun hZero => h.step (hZero ▸ hStep)
      omega
    · exact hLength
  have hLe : s.accepted bytes.length ≤ bytes.length := by
    simp only [accepted, h.capacity]
    split <;> omega
  refine ⟨s.accepted bytes.length - 1, by omega, ?_⟩
  rw [Nat.sub_add_cancel hPos, Sink.write, h.capacity]
  rfl

theorem Takes.writeAll (h : s.Takes) (bytes : Bytes) :
    s.writeAll bytes = (.ok (), { s with written := s.written ++ bytes }) := by
  fun_induction Sink.writeAll s bytes with
  | case1 s => simp
  | case2 s byte rest fault t hWrite =>
    obtain ⟨count, -, hCount⟩ := h.write (List.cons_ne_nil byte rest)
    cases hWrite.symm.trans hCount
  | case3 s byte rest t hWrite =>
    obtain ⟨count, -, hCount⟩ := h.write (List.cons_ne_nil byte rest)
    cases hWrite.symm.trans hCount
  | case4 s byte rest count t hWrite ih =>
    obtain ⟨same, -, hCount⟩ := h.write (List.cons_ne_nil byte rest)
    cases hWrite.symm.trans hCount
    rw [ih ⟨h.step, h.capacity, h.flush⟩]
    simp

theorem Takes.send (h : s.Takes) (text : String) :
    s.send text =
      (.ok (), { s with written := s.written ++ utf8 text, flushes := s.flushes + 1 }) := by
  rw [Sink.send, h.writeAll]
  simp only [Sink.flush, h.flush]
  rfl

theorem Takes.takes_send (h : s.Takes) (text : String) : (s.send text).2.Takes := by
  rw [h.send]
  exact ⟨h.step, h.capacity, h.flush⟩

end Keyspace.Sink
