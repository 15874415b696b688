import Keyspace.Service.Client
import Keyspace.Service.Server

/-! # Visitors: clients joined to a server in memory -/
namespace Keyspace
set_option autoImplicit false

/-- A client, and the number of its connection while the server keeps one for it. -/
structure Visitor where
  client : Client
  id : Option Nat
  deriving DecidableEq, Repr, Inhabited

namespace Visitor

/-- Connects to a server. A client that is refused is told so and finds the stream ended. -/
def connect (s : Server) : Visitor × Server :=
  match s.accept with
  | (.accepted id, s) => (⟨Client.ofSource ⟨[], false⟩, some id⟩, s)
  | (.refused reply, s) =>
    (⟨Client.ofSource (Source.ofBytes (Text.utf8 reply.text) true), none⟩, s)
  | (.unreachable, s) => (⟨Client.ofSource ⟨[], true⟩, none⟩, s)

def carry (v : Visitor) (text : String) (s : Server) : Visitor × Server :=
  match v.id with
  | none => (v, s)
  | some id =>
    let (sent, gone, s) := s.receive id (Text.utf8 text)
    let source := v.client.reader.source.deliver sent
    if gone then (⟨{ v.client with reader.source := source.finish }, none⟩, s)
    else (⟨{ v.client with reader.source := source }, some id⟩, s)

def ask (v : Visitor) (text : String) (verb : Option Verb) (s : Server) :
    Result String × Visitor × Server :=
  let (v, s) := v.carry text s
  let (reply, client) := v.client.ask text verb
  (reply, { v with client }, s)

def send (v : Visitor) (line : String) (s : Server) : Result String × Visitor × Server :=
  v.ask (Client.request line) (Client.verbOf line) s

def execute (v : Visitor) (command : Command) (s : Server) :
    Result String × Visitor × Server :=
  v.ask command.line (some command.verb) s

def leave (v : Visitor) (s : Server) : Server :=
  match v.id with
  | none => s
  | some id => s.hangUp id

end Visitor
end Keyspace
