import Keyspace.Service.Prompt

/-! # The program: a prompt for a store that lives as long as the program runs -/
namespace Keyspace.Program
set_option autoImplicit false

/-- The bytes up to the next newline, which is the last of them. -/
partial def readLine (input : IO.FS.Stream) (line : ByteArray) : IO ByteArray := do
  let next ← input.read 1
  let line := line ++ next
  if next.isEmpty || next.data.back? = some LineReader.newline then return line
  readLine input line

/-- Tosses that a seed fixes, by steps of a constant whose bits are mixed. -/
def tosses (seed : UInt64) (i : Nat) : Bool :=
  let bits := seed + i.toUInt64 * 0x9e3779b97f4a7c15
  let bits := (bits ^^^ (bits >>> 30)) * 0xbf58476d1ce4e5b9
  let bits := (bits ^^^ (bits >>> 27)) * 0x94d049bb133111eb
  (bits >>> 63) = 1

def chance (seed : UInt64) : Chance where
  coins key := { tosses := tosses (seed ^^^ hash key) }
  listing := default

/-- Takes turns with whoever types, until the input ends or a turn ends the conversation. -/
partial def converse (input output : IO.FS.Stream) (v : Visitor) (s : Server) :
    IO (Result Unit) := do
  output.putStr Prompt.text
  output.flush
  let line ← readLine input ByteArray.empty
  if line.isEmpty then return .ok ()
  match Prompt.turn line.data.toList v s with
  | (.skip, v, s) => converse input output v s
  | (.print reply, v, s) =>
    output.putStr (reply ++ "\n")
    converse input output v s
  | (.quit, _, _) => return .ok ()
  | (.fail e, _, _) => return .error e
  | (.panic, _, _) => return .panic

def run (args : List String) : IO UInt32 := do
  let output ← IO.getStdout
  let seed ← IO.rand 0 (UInt64.size - 1)
  let outcome : Outcome ←
    match Server.start {} (chance seed.toUInt64) with
    | .error e => pure ⟨"", .error e⟩
    | .ok server =>
      match Prompt.requestWords args with
      | [] =>
        let (visitor, server) := Visitor.connect server
        pure ⟨"", ← converse (← IO.getStdin) output visitor server⟩
      | _ => pure (Prompt.run args [] server).1
  output.putStr outcome.output
  (← IO.getStderr).putStr outcome.errorOutput
  return outcome.exitCode

end Keyspace.Program

def main (args : List String) : IO UInt32 :=
  Keyspace.Program.run args
