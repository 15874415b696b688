import Std.Data.ExtTreeMap
import Keyspace.Config
import Keyspace.Service.Connection

/-! # Servers: the connections that are served, of which there are only so many, over one store -/
namespace Keyspace
set_option autoImplicit false

/-- Each connection is registered under a number of its own, given in the order of arrival. Numbers
of 64 bits are taken to be enough: there are fewer than 2 ^ 64 arrivals. -/
structure Server where
  config : Config
  store : Store
  connections : Std.ExtTreeMap Nat Connection
  arrivals : Nat
  running : Bool

inductive Admission where
  | accepted (id : Nat)
  | refused (reply : Reply)
  | unreachable
  deriving DecidableEq, Repr, Inhabited

namespace Server

def start (config : Config) (chance : Chance) : Except Error Server := do
  config.validate
  .ok ⟨config, Store.empty chance, ∅, 0, true⟩

def noRoom : Reply := .error "too many connections"

def accept (s : Server) : Admission × Server :=
  if !s.running then (.unreachable, s)
  else
    let id := s.arrivals + 1
    if s.config.maxConnections.toNat ≤ s.connections.size then
      (.refused noRoom, { s with arrivals := id })
    else
      let connection := Connection.fresh s.config.maxLineLength
      (.accepted id,
        { s with arrivals := id, connections := s.connections.insert id connection })

/-- Serves a connection as far as it goes, and strikes it from the register when it is over, which
a panic does not live to do. Answers what was sent, and whether it is over. -/
def serve (s : Server) (id : Nat) (connection : Connection) : Bytes × Bool × Server :=
  let (ending, connection, store) := connection.serve s.store
  let (sent, connection) := connection.takeSent
  match ending with
  | .waiting | .panicked =>
    (sent, false, { s with store, connections := s.connections.insert id connection })
  | _ => (sent, true, { s with store, connections := s.connections.erase id })

def receive (s : Server) (id : Nat) (bytes : Bytes) : Bytes × Bool × Server :=
  match s.connections[id]? with
  | none => ([], true, s)
  | some connection => s.serve id (connection.deliver bytes)

def hangUp (s : Server) (id : Nat) : Server :=
  match s.connections[id]? with
  | none => s
  | some connection => (s.serve id connection.finish).2.2

/-- Accepts no one any more, shuts all connections down and sees them to their end. -/
def shutDown (s : Server) : Server :=
  s.connections.toList.foldl (fun s (id, connection) => (s.serve id connection.shutDown).2.2)
    { s with running := false }

end Server
end Keyspace
