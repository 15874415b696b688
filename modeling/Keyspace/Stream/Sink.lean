import Keyspace.Error
import Keyspace.Reply
import Keyspace.Command.Request
import Keyspace.Text.Utf8

/-! # Sinks: streams to write to, which may take less than they are given, or nothing more -/
namespace Keyspace
set_option autoImplicit false

structure Sink where
  written : Bytes
  flushes : Nat
  /-- The most bytes that one write takes. -/
  step : Option Nat
  /-- The most bytes that the stream holds. -/
  capacity : Option Nat
  /-- What a write to a full stream meets, and a flush that fails. -/
  fault : Fault
  flushFails : Bool
  deriving DecidableEq, Repr

namespace Sink

def unlimited : Sink := ⟨[], 0, none, none, ⟨.other, ""⟩, false⟩

instance : Inhabited Sink := ⟨unlimited⟩

def accepted (s : Sink) (offered : Nat) : Nat :=
  let byStep := match s.step with
    | some step => min offered step
    | none => offered
  match s.capacity with
  | some capacity => min byStep (capacity - s.written.length)
  | none => byStep

def write (s : Sink) (bytes : Bytes) : Except Fault Nat × Sink :=
  if s.capacity.any (· ≤ s.written.length) then (.error s.fault, s)
  else
    let count := s.accepted bytes.length
    (.ok count, { s with written := s.written ++ bytes.take count })

def refused : Fault := ⟨.writeZero, "failed to write whole buffer"⟩

def writeAll (s : Sink) (bytes : Bytes) : Except Error Unit × Sink :=
  match bytes with
  | [] => (.ok (), s)
  | byte :: rest =>
    match s.write (byte :: rest) with
    | (.error fault, s) => (.error (.io fault), s)
    | (.ok 0, s) => (.error (.io refused), s)
    | (.ok (count + 1), s) => s.writeAll (rest.drop count)
termination_by bytes.length
decreasing_by
  simp only [List.length_drop, List.length_cons]
  omega

def flush (s : Sink) : Except Error Unit × Sink :=
  let s := { s with flushes := s.flushes + 1 }
  (if s.flushFails then .error (.io s.fault) else .ok (), s)

def send (s : Sink) (text : String) : Except Error Unit × Sink :=
  match s.writeAll (Text.utf8 text) with
  | (.ok (), s) => s.flush
  | (.error e, s) => (.error e, s)

def sendCommand (s : Sink) (c : Command) : Except Error Unit × Sink := s.send c.line

def sendReply (s : Sink) (r : Reply) : Except Error Unit × Sink := s.send r.text

end Sink
end Keyspace
