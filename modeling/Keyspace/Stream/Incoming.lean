import Keyspace.Stream.LineReader
import Keyspace.Command.Request

/-! # What comes in: requests and replies, taken from the lines of a stream -/
namespace Keyspace.LineReader
set_option autoImplicit false

/-- The next line that is not blank, or none at the end of the stream. -/
def readRequest (r : LineReader) : Result (Option String) × LineReader :=
  match _hLine : r.readLine with
  | (.ok (some line), next) =>
    if Text.isBlank line then next.readRequest else (.ok (some line), next)
  | (.ok none, next) => (.ok none, next)
  | (.error e, next) => (.error e, next)
  | (.panic, next) => (.panic, next)
termination_by r.weight
decreasing_by exact weight_readLine_lt _hLine

theorem weight_readRequest_lt {r t : LineReader} {line : String}
    (h : r.readRequest = (.ok (some line), t)) : t.weight < r.weight := by
  fun_induction readRequest r with
  | case1 r line' next hLine hBlank ih =>
    have hLt := ih h
    have hNext := weight_readLine_lt hLine
    omega
  | case2 r line' next hLine hBlank =>
    cases h
    exact weight_readLine_lt hLine
  | case3 => cases h
  | case4 => cases h
  | case5 => cases h

def readCommand (r : LineReader) : Result (Option Command) × LineReader :=
  match r.readRequest with
  | (.ok (some line), next) => (.ofExcept ((Request.read line).map some), next)
  | (.ok none, next) => (.ok none, next)
  | (.error e, next) => (.error e, next)
  | (.panic, next) => (.panic, next)

def readBody : (count : Nat) → LineReader → Result (List String) × LineReader
  | 0, r => (.ok [], r)
  | count + 1, r =>
    match r.readLine with
    | (.ok (some line), next) =>
      let (lines, next) := readBody count next
      (lines.map (line :: ·), next)
    | (.ok none, next) => (.error .closedMidReply, next)
    | (.error e, next) => (.error e, next)
    | (.panic, next) => (.panic, next)

/-- How many lines follow the first one of a reply: what it says, if the verb is one that is
answered in lines and the first one says a number. -/
def bodyLength (verb : Option Verb) (first : String) : Nat :=
  if verb.any Verb.repliesInLines then (Text.readCount first).getD 0 else 0

def readReply (r : LineReader) (verb : Option Verb) : Result String × LineReader :=
  match r.readLine with
  | (.ok (some first), next) =>
    let (body, next) := readBody (bodyLength verb first) next
    (body.map fun lines => "\n".intercalate (first :: lines), next)
  | (.ok none, next) => (.error .closedBeforeReply, next)
  | (.error e, next) => (.error e, next)
  | (.panic, next) => (.panic, next)

end Keyspace.LineReader
