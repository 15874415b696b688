import Mathlib.Logic.Relation
import Keyspace.Service.Server
import Keyspace.Proofs.Service.Conversation
import Keyspace.Proofs.Stream.Waiting

/-! # Threads: one lets clients in, one serves each connection, and they take turns in any order

A server that serves a connection as far as it goes, in one go, is one way for the threads to take
turns; here each of their steps is one of its own. -/
namespace Keyspace
set_option autoImplicit false

/-- Where the thread is that lets clients in. -/
inductive Acceptor where
  -- about to look whether it is to stop, and then to take the client that has waited longest
  | looking
  | listening
  | spawning (id : Nat)
  | refusing (id : Nat) (reply : Reply)
  -- it holds the register, with these connections still to be shut down
  | closing (ids : List Nat)
  | waiting
  | returned
  deriving DecidableEq, Repr, Inhabited

inductive Handler where
  -- registered already, but not started
  | due
  | preparing
  | reading
  | executing (line : String)
  | replying (reply : Reply)
  | telling (error : Error)
  | leaving (result : Result Unit)
  -- off the register, and about to end
  | struck

structure Task where
  handler : Handler
  connection : Connection
  store : Store

/-- One step of a thread that serves. Threads are taken not to panic: no step leads on from there. -/
inductive Task.Step (config : Config) : Task → Task → Prop where
  | prepare {c : Connection} {s : Store} : Step config ⟨.preparing, c, s⟩ ⟨.reading, c, s⟩
  | unprepared {c : Connection} {s : Store} (e : Error) :
    Step config ⟨.preparing, c, s⟩ ⟨.leaving (.error e), c, s⟩
  | read {c : Connection} {s : Store} {line : String} {reader : LineReader}
      (hRead : c.reader.readRequest = (.ok (some line), reader)) :
    Step config ⟨.reading, c, s⟩ ⟨.executing line, { c with reader }, s⟩
  | ended {c : Connection} {s : Store} {reader : LineReader}
      (hRead : c.reader.readRequest = (.ok none, reader)) :
    Step config ⟨.reading, c, s⟩ ⟨.leaving (.ok ()), { c with reader }, s⟩
  | gone {c : Connection} {s : Store} {e : Error} {reader : LineReader}
      (hRead : c.reader.readRequest = (.error e, reader)) (hGone : Ending.ofReadError e = .closed) :
    Step config ⟨.reading, c, s⟩ ⟨.leaving (.ok ()), { c with reader }, s⟩
  | wait {c : Connection} {s : Store} {e : Error} {reader : LineReader}
      (hRead : c.reader.readRequest = (.error e, reader))
      (hWait : Ending.ofReadError e = .waiting) :
    Step config ⟨.reading, c, s⟩ ⟨.reading, { c with reader }, s⟩
  | expire {c : Connection} {s : Store} {e : Error} {reader : LineReader}
      (hRead : c.reader.readRequest = (.error e, reader))
      (hWait : Ending.ofReadError e = .waiting) (hLimited : config.readTimeout ≠ 0) :
    Step config ⟨.reading, c, s⟩ ⟨.leaving (.ok ()), { c with reader }, s⟩
  | fail {c : Connection} {s : Store} {e failure : Error} {reader : LineReader}
      (hRead : c.reader.readRequest = (.error e, reader))
      (hFail : Ending.ofReadError e = .failed failure) :
    Step config ⟨.reading, c, s⟩ ⟨.telling failure, { c with reader }, s⟩
  | tell {c : Connection} {s : Store} {e : Error} :
    Step config ⟨.telling e, c, s⟩
      ⟨.leaving (.error e), { c with sink := (c.sink.sendReply (.error e.message)).2 }, s⟩
  | execute {c : Connection} {s : Store} {line : String} :
    Step config ⟨.executing line, c, s⟩
      ⟨.replying (Request.execute line s).1, c, (Request.execute line s).2⟩
  | reply {c : Connection} {s : Store} {reply : Reply} {sink : Sink}
      (hSend : c.sink.sendReply reply = (.ok (), sink)) :
    Step config ⟨.replying reply, c, s⟩ ⟨.reading, { c with sink }, s⟩
  | unsent {c : Connection} {s : Store} {reply : Reply} {e : Error} {sink : Sink}
      (hSend : c.sink.sendReply reply = (.error e, sink)) :
    Step config ⟨.replying reply, c, s⟩
      ⟨.leaving (Ending.ofWriteError e).result, { c with sink }, s⟩

namespace Connection

/-- A stream that is shut down brings nothing more, and takes nothing more. -/
structure IsShut (c : Connection) : Prop where
  ended : c.reader.source.ended = true
  full : c.sink.capacity = some 0

theorem isShut_shutDown (c : Connection) : c.shutDown.IsShut := ⟨rfl, rfl⟩

/-- What may become of a connection that its thread is not at: bytes and faults arrive, the stream
ends, what was sent is taken, and nothing more is, or more again, until the stream is shut down. -/
structure Evolves (c d : Connection) : Prop where
  limit : d.reader.limit = c.reader.limit
  buffer : d.reader.buffer = c.reader.buffer
  arrivals : c.reader.source.arrivals <+: d.reader.source.arrivals
  shut : c.IsShut → d.IsShut

end Connection

theorem Task.Step.isShut {config : Config} {task next : Task} (h : task.Step config next)
    (hShut : task.connection.IsShut) : next.connection.IsShut := by
  have hReader : ∀ {result : Result (Option String)} {reader : LineReader},
      task.connection.reader.readRequest = (result, reader) →
      Connection.IsShut { task.connection with reader } := by
    intro result reader hRead
    have hContinues := task.connection.reader.continues_readRequest
    rw [hRead] at hContinues
    exact ⟨hContinues.ended.trans hShut.ended, hShut.full⟩
  have hSink : ∀ {result : Except Error Unit} {sink : Sink} {reply : Reply},
      task.connection.sink.sendReply reply = (result, sink) →
      Connection.IsShut { task.connection with sink } := by
    intro result sink reply hSend
    have hCapacity := task.connection.sink.capacity_send reply.text
    rw [← Sink.sendReply, hSend] at hCapacity
    exact ⟨hShut.ended, hCapacity.trans hShut.full⟩
  cases h with
  | prepare | unprepared | execute => exact hShut
  | read hRead | ended hRead | gone hRead | wait hRead | expire hRead | fail hRead =>
    exact hReader hRead
  | tell => exact hSink rfl
  | reply hSend | unsent hSend => exact hSink hSend

theorem Task.Step.handler_ne {config : Config} {task next : Task} (h : task.Step config next) :
    task.handler ≠ .due ∧ next.handler ≠ .struck := by
  cases h <;> exact ⟨nofun, nofun⟩

namespace Server

def put (s : Server) (id : Nat) (c : Connection) : Server :=
  { s with connections := s.connections.insert id c }

def strike (s : Server) (id : Nat) : Server := { s with connections := s.connections.erase id }

end Server

/-- All the threads of a server, what they share, and what clients were sent that were refused. -/
structure Threads where
  server : Server
  stopping : Bool
  acceptor : Acceptor
  handlers : Std.ExtTreeMap Nat Handler
  refused : Std.ExtTreeMap Nat Sink

inductive Event where
  | accepts (id : Nat)
  | refuses (id : Nat)
  | tells (id : Nat) (client : Sink)
  | releases (id : Nat)
  | other

namespace Threads

def start (server : Server) : Threads := ⟨server, false, .looking, ∅, ∅⟩

inductive Step (t : Threads) : Event → Threads → Prop where
  | request : t.Step .other { t with stopping := true }
  | listen (hAt : t.acceptor = .looking) (hGo : t.stopping = false) :
    t.Step .other { t with acceptor := .listening }
  | nobody (hAt : t.acceptor = .listening) : t.Step .other { t with acceptor := .looking }
  | accept {id : Nat} {server : Server} (hAt : t.acceptor = .listening)
      (hAccept : t.server.accept = (.accepted id, server)) :
    t.Step (.accepts id)
      { t with server, acceptor := .spawning id, handlers := t.handlers.insert id .due }
  | refuse {reply : Reply} {server : Server} (hAt : t.acceptor = .listening)
      (hRefuse : t.server.accept = (.refused reply, server)) :
    t.Step (.refuses server.arrivals)
      { t with server, acceptor := .refusing server.arrivals reply }
  | tell {id : Nat} {reply : Reply} {client : Sink} (hAt : t.acceptor = .refusing id reply)
      (hNew : client.written = []) :
    t.Step (.tells id client)
      { t with
        acceptor := .looking
        refused := t.refused.insert id (client.sendReply reply).2 }
  | spawn {id : Nat} (hAt : t.acceptor = .spawning id) :
    t.Step .other { t with acceptor := .looking, handlers := t.handlers.insert id .preparing }
  | unspawned {id : Nat} (hAt : t.acceptor = .spawning id) :
    t.Step (.releases id)
      { t with
        server := t.server.strike id
        acceptor := .looking
        handlers := t.handlers.erase id }
  -- the register has no order of its own in which the connections are shut down
  | close {ids : List Nat} (hAt : t.acceptor = .looking) (hStop : t.stopping = true)
      (hIds : ids.Perm t.server.connections.keys) :
    t.Step .other
      { t with server := { t.server with running := false }, acceptor := .closing ids }
  | shut {id : Nat} {ids : List Nat} {c : Connection} (hAt : t.acceptor = .closing (id :: ids))
      (hFound : t.server.connections[id]? = some c) :
    t.Step .other { t with server := t.server.put id c.shutDown, acceptor := .closing ids }
  | closed (hAt : t.acceptor = .closing []) : t.Step .other { t with acceptor := .waiting }
  | finish (hAt : t.acceptor = .waiting) (hNone : t.handlers = ∅) :
    t.Step .other { t with acceptor := .returned }
  | work {id : Nat} {task next : Task} (hAt : t.handlers[id]? = some task.handler)
      (hFound : t.server.connections[id]? = some task.connection)
      (hStore : t.server.store = task.store) (hStep : task.Step t.server.config next) :
    t.Step .other
      { t with
        server := { t.server.put id next.connection with store := next.store }
        handlers := t.handlers.insert id next.handler }
  -- the register is free to be changed, unless connections are being shut down
  | leave {id : Nat} {result : Result Unit} (hAt : t.handlers[id]? = some (.leaving result))
      (hFree : ∀ ids, t.acceptor ≠ .closing ids) :
    t.Step (.releases id)
      { t with server := t.server.strike id, handlers := t.handlers.insert id .struck }
  | exit {id : Nat} (hAt : t.handlers[id]? = some .struck) :
    t.Step .other { t with handlers := t.handlers.erase id }
  | evolve {id : Nat} {c d : Connection} (hFound : t.server.connections[id]? = some c)
      (hEvolves : c.Evolves d) : t.Step .other { t with server := t.server.put id d }

def Runs : Threads → Threads → Prop := Relation.ReflTransGen fun t u => ∃ event, t.Step event u

end Threads
end Keyspace
