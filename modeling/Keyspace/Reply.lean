import Keyspace.Score.Text
import Keyspace.SkipList.Range

/-! # Replies: what a request is answered with, and its text -/
namespace Keyspace
set_option autoImplicit false

inductive Reply where
  | ok
  | pong
  | integer (n : Int)
  | score (s : Score)
  | value (text : String)
  | nil
  | list (values : List String)
  | pairs (entries : List ScoredMember)
  | error (message : String)
  deriving DecidableEq, Repr, Inhabited

namespace Reply

def ofValue? : Option String → Reply
  | some text => value text
  | none => nil

def ofInt64? : Option Int64 → Reply
  | some n => integer n.toInt
  | none => nil

def ofNat? : Option Nat → Reply
  | some n => integer n
  | none => nil

def ofList? : Option (List String) → Reply
  | some values => list values
  | none => nil

def ofBool (b : Bool) : Reply := integer b.toNat

/-- One line, or a count and as many lines. -/
def lines : Reply → List String
  | ok => ["OK"]
  | pong => ["PONG"]
  | integer n => [Text.intText n]
  | score s => [s.text]
  | value text => [text]
  | nil => ["(nil)"]
  | list values => Text.natText values.length :: values
  | pairs entries =>
    Text.natText entries.length :: entries.map fun (member, s) => member ++ " " ++ s.text
  | error message => ["error: " ++ message]

def text (r : Reply) : String :=
  String.join (r.lines.map (· ++ "\n"))

end Reply
end Keyspace
