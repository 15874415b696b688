import Keyspace.Service.Visitor

/-! # The prompt: lines typed in, replies printed -/
namespace Keyspace
set_option autoImplicit false

structure Outcome where
  output : String
  ending : Result Unit
  deriving DecidableEq, Repr, Inhabited

namespace Outcome

/-- Of what a panic prints, the message alone. -/
def errorOutput (o : Outcome) : String :=
  match o.ending with
  | .ok () => ""
  | .error e => "error: " ++ e.message ++ "\n"
  | .panic => "attempt to add with overflow\n"

def exitCode (o : Outcome) : UInt32 :=
  match o.ending with
  | .ok () => 0
  | .error _ => 1
  | .panic => 101

end Outcome

namespace Prompt

def text : String := "multikv> "

inductive Turn where
  | skip
  | quit
  | print (reply : String)
  | fail (error : Error)
  | panic
  deriving DecidableEq, Repr, Inhabited

def notText : Fault := ⟨.invalidData, "stream did not contain valid UTF-8"⟩

/-- One line: blanks at its ends do not count, and an empty one is not sent. -/
def turn (line : Bytes) (v : Visitor) (s : Server) : Turn × Visitor × Server :=
  match Text.ofUtf8? line with
  | none => (.fail (.io notText), v, s)
  | some line =>
    let line := Text.trim line
    if line = "" then (.skip, v, s)
    else if Text.asciiLower line = "quit" then (.quit, v, s)
    else
      match v.send line s with
      | (.ok reply, v, s) => (.print reply, v, s)
      | (.error e, v, s) => (.fail e, v, s)
      | (.panic, v, s) => (.panic, v, s)

/-- The lines of an input; a last one without a newline is a line too. -/
def linesOf (input : Bytes) : List Bytes :=
  let lines := input.splitOn LineReader.newline
  if lines.getLast? = some [] then lines.dropLast else lines

def converse : List Bytes → Visitor → Server → Outcome × Visitor × Server
  | [], v, s => (⟨text, .ok ()⟩, v, s)
  | line :: lines, v, s =>
    match turn line v s with
    | (.skip, v, s) =>
      let (o, v, s) := converse lines v s
      ({ o with output := text ++ o.output }, v, s)
    | (.print reply, v, s) =>
      let (o, v, s) := converse lines v s
      ({ o with output := text ++ reply ++ "\n" ++ o.output }, v, s)
    | (.quit, v, s) => (⟨text, .ok ()⟩, v, s)
    | (.fail e, v, s) => (⟨text, .error e⟩, v, s)
    | (.panic, v, s) => (⟨text, .panic⟩, v, s)

def once (words : List String) (v : Visitor) (s : Server) : Outcome × Visitor × Server :=
  match v.send (" ".intercalate words) s with
  | (.ok reply, v, s) => (⟨reply ++ "\n", .ok ()⟩, v, s)
  | (.error e, v, s) => (⟨"", .error e⟩, v, s)
  | (.panic, v, s) => (⟨"", .panic⟩, v, s)

/-- The words of a request given as arguments; two dashes before them part them from options. -/
def requestWords : List String → List String
  | "--" :: words => words
  | words => words

def run (args : List String) (input : Bytes) (s : Server) : Outcome × Server :=
  let (v, s) := Visitor.connect s
  let (o, v, s) :=
    match requestWords args with
    | [] => converse (linesOf input) v s
    | words => once words v s
  (o, v.leave s)

end Prompt
end Keyspace
