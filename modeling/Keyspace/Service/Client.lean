import Keyspace.Stream.Incoming
import Keyspace.Stream.Sink

/-! # Clients: requests out, one reply in for each -/
namespace Keyspace
set_option autoImplicit false

structure Client where
  reader : LineReader
  sink : Sink
  deriving DecidableEq, Repr, Inhabited

namespace Client

/-- The most bytes of a reply line: 16 MiB. -/
def maxReplyLine : UInt64 := 16 * 1024 * 1024

def ofSource (source : Source) : Client :=
  ⟨LineReader.ofSource source maxReplyLine, Sink.unlimited⟩

def verbOf (line : String) : Option Verb :=
  (Text.words line).head?.bind Verb.read?

/-- What is sent for a line: white space at its end goes. -/
def request (line : String) : String := Text.trimEnd line ++ "\n"

def ask (c : Client) (text : String) (verb : Option Verb) : Result String × Client :=
  match c.sink.send text with
  | (.ok (), sink) =>
    let (reply, reader) := c.reader.readReply verb
    (reply, ⟨reader, sink⟩)
  | (.error e, sink) => (.error e, { c with sink })

def send (c : Client) (line : String) : Result String × Client :=
  c.ask (request line) (verbOf line)

def execute (c : Client) (command : Command) : Result String × Client :=
  c.ask command.line (some command.verb)

end Client
end Keyspace
