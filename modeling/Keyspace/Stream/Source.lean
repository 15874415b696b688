import Keyspace.Text.Utf8
import Keyspace.Stream.Fault

/-! # Sources: streams to read from, whose bytes arrive in pieces -/
namespace Keyspace
set_option autoImplicit false

inductive Arrival where
  | data (bytes : Bytes)
  | fault (fault : Fault)
  deriving DecidableEq, Repr, Inhabited

/-- A stream: what it is going to bring, and whether it has ended after that or stays open. -/
structure Source where
  arrivals : List Arrival
  ended : Bool
  deriving DecidableEq, Repr, Inhabited

namespace Source

def readSize : Nat := 4096

def stalled : Fault := ⟨.wouldBlock, "Resource temporarily unavailable (os error 11)"⟩

/-- Takes the bytes that arrive next, or the first of them if they are more than one read takes.
No bytes mean the end of the stream. -/
def read (s : Source) : Except Fault Bytes × Source :=
  match s.arrivals with
  | [] => (if s.ended then .ok [] else .error stalled, s)
  | .fault fault :: rest => (.error fault, { s with arrivals := rest })
  | .data bytes :: rest =>
    if bytes.length ≤ readSize then (.ok bytes, { s with arrivals := rest })
    else (.ok (bytes.take readSize), { s with arrivals := .data (bytes.drop readSize) :: rest })

def ofBytes (bytes : Bytes) (ended : Bool) : Source :=
  ⟨if bytes = [] then [] else [.data bytes], ended⟩

def deliver (s : Source) (bytes : Bytes) : Source :=
  if bytes = [] then s else { s with arrivals := s.arrivals ++ [.data bytes] }

def finish (s : Source) : Source := { s with ended := true }

def arrivalWeight : Arrival → Nat
  | .data bytes => bytes.length + 1
  | .fault _ => 1

def arrivalsWeight : List Arrival → Nat
  | [] => 0
  | first :: rest => arrivalWeight first + arrivalsWeight rest

/-- A bound on the reads after which nothing more arrives. -/
def weight (s : Source) : Nat := arrivalsWeight s.arrivals

theorem weight_read_ok {s t : Source} {bytes : Bytes} (h : s.read = (.ok bytes, t)) :
    t.weight + bytes.length ≤ s.weight := by
  obtain ⟨arrivals, ended⟩ := s
  cases arrivals with
  | nil =>
    cases ended
    · cases h
    · cases h
      exact Nat.le_refl _
  | cons first rest =>
    cases first with
    | fault f => simp [read] at h
    | data b =>
      simp only [read] at h
      split at h <;> cases h <;> simp [weight, arrivalsWeight, arrivalWeight, readSize] at * <;> omega

theorem weight_read_ok_lt {s t : Source} {bytes : Bytes} (h : s.read = (.ok bytes, t))
    (hBytes : bytes ≠ []) : t.weight < s.weight := by
  have hLe := weight_read_ok h
  have hPos : 0 < bytes.length := List.length_pos_iff.mpr hBytes
  omega

theorem weight_read_error_lt {s t : Source} {f : Fault} (h : s.read = (.error f, t))
    (hFault : f.kind = .interrupted) : t.weight < s.weight := by
  obtain ⟨arrivals, ended⟩ := s
  cases arrivals with
  | nil =>
    cases ended <;> simp [read] at h
    obtain ⟨rfl, -⟩ := h
    cases hFault
  | cons first rest =>
    cases first with
    | fault f' =>
      cases h
      simp [weight, arrivalsWeight, arrivalWeight]
    | data b =>
      simp only [read] at h
      split at h <;> cases h

end Source
end Keyspace
