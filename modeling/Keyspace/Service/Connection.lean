import Keyspace.Command.Execution
import Keyspace.Stream.Incoming
import Keyspace.Stream.Sink

/-! # Connections: requests in, replies out, one for each request -/
namespace Keyspace
set_option autoImplicit false

inductive Ending where
  /-- No request is complete, and more may arrive. -/
  | waiting
  /-- The stream ended, or the peer is gone. -/
  | closed
  | failed (error : Error)
  | panicked
  deriving DecidableEq, Repr, Inhabited

namespace Ending

/-- A peer that is gone, and one that keeps us waiting, are no failures. -/
def ofReadError : Error → Ending
  | .io ⟨.connectionReset, _⟩ | .io ⟨.connectionAborted, _⟩ => closed
  | .io ⟨.wouldBlock, _⟩ | .io ⟨.timedOut, _⟩ => waiting
  | e => failed e

def ofWriteError : Error → Ending
  | .io ⟨.connectionReset, _⟩ | .io ⟨.connectionAborted, _⟩ | .io ⟨.brokenPipe, _⟩ => closed
  | e => failed e

def result : Ending → Result Unit
  | waiting | closed => .ok ()
  | failed e => .error e
  | panicked => .panic

end Ending

structure Connection where
  reader : LineReader
  sink : Sink
  deriving DecidableEq, Repr, Inhabited

namespace Connection

def fresh (maxLineLength : UInt64) : Connection :=
  ⟨LineReader.ofSource ⟨[], false⟩ maxLineLength, Sink.unlimited⟩

/-- Replies to each request in turn. A failure to read is told to the peer before it ends the
connection; of a panic nothing is told. -/
def serve (c : Connection) (s : Store) : Ending × Connection × Store :=
  match _hRequest : c.reader.readRequest with
  | (.ok (some line), reader) =>
    let (reply, s) := Request.execute line s
    match c.sink.sendReply reply with
    | (.ok (), sink) => serve ⟨reader, sink⟩ s
    | (.error e, sink) => (.ofWriteError e, ⟨reader, sink⟩, s)
  | (.ok none, reader) => (.closed, { c with reader }, s)
  | (.error e, reader) =>
    match Ending.ofReadError e with
    | .failed e =>
      let (_, sink) := c.sink.sendReply (.error e.message)
      (.failed e, ⟨reader, sink⟩, s)
    | ending => (ending, { c with reader }, s)
  | (.panic, reader) => (.panicked, { c with reader }, s)
termination_by c.reader.weight
decreasing_by exact LineReader.weight_readRequest_lt _hRequest

def deliver (c : Connection) (bytes : Bytes) : Connection :=
  { c with reader.source := c.reader.source.deliver bytes }

def finish (c : Connection) : Connection :=
  { c with reader.source := c.reader.source.finish }

/-- The stream is shut down: nothing more arrives, and nothing more can be sent. -/
def shutDown (c : Connection) : Connection :=
  { c.finish with
    sink := { c.sink with capacity := some 0, fault := ⟨.brokenPipe, "Broken pipe (os error 32)"⟩ } }

def takeSent (c : Connection) : Bytes × Connection :=
  (c.sink.written, { c with sink.written := [] })

end Connection
end Keyspace
