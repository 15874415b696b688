/-! # Faults: how reading from a stream, or writing to it, can fail -/
namespace Keyspace
set_option autoImplicit false

inductive FaultKind where
  | interrupted
  | wouldBlock
  | timedOut
  | connectionReset
  | connectionAborted
  | brokenPipe
  | writeZero
  | invalidData
  | other
  deriving DecidableEq, Repr, Inhabited

structure Fault where
  kind : FaultKind
  text : String
  deriving DecidableEq, Repr, Inhabited

end Keyspace
