import Keyspace.Score.Text
import Keyspace.Error
import Keyspace.Command.Basic

/-! # Requests: commands as lines of words -/
namespace Keyspace
set_option autoImplicit false

namespace Command

def args : Command → List String
  | ping => []
  | zadd key score member => [key, score.text, member]
  | zrem key member | zscore key member | sadd key member | srem key member
  | sismember key member => [key, member]
  | zrange key minScore maxScore offset count | zrangedel key minScore maxScore offset count =>
    [key, minScore.text, maxScore.text, Text.natText offset, Text.natText count]
  | zquery key minScore minMember maxScore maxMember offset count =>
    [key, minScore.text, minMember, maxScore.text, maxMember, Text.natText offset,
      Text.natText count]
  | zcard key | get key | del key | lpop key | rpop key | llen key | scard key => [key]
  | set key value | lpush key value | rpush key value => [key, value]
  | incrby key amount => [key, Text.intText amount.toInt]
  | lmove source destination fromEnd toEnd => [source, destination, fromEnd, toEnd]
  | lrange key start stop | ltrim key start stop =>
    [key, Text.intText start.toInt, Text.intText stop.toInt]
  | sinter keys => keys
  | hset key pairs => key :: pairs.flatMap fun (field, value) => [field, value]
  | hget key field => [key, field]
  | hmget key fields => key :: fields
  | hincrby key field amount => [key, field, Text.intText amount.toInt]

def line (c : Command) : String :=
  " ".intercalate (c.verb.name :: c.args) ++ "\n"

end Command

namespace Request

def readScore (word : String) : Except Error Score :=
  match Score.read word with
  | some (.number negative rank) => .ok (.number negative rank)
  | _ => .error (.notANumber word)

def readInteger (word : String) : Except Error Int64 :=
  match Text.readInt64 word with
  | some i => .ok i
  | none => .error (.notAnInteger word)

/-- An offset or a count: a number below zero stands for zero. -/
def readCount (word : String) : Except Error Nat :=
  (readInteger word).map Int64.toNatClampNeg

def pairUp : List String → Option (List (String × String))
  | [] => some []
  | [_] => none
  | field :: value :: rest => (pairUp rest).map ((field, value) :: ·)

/-- The command of a verb and the words after it. Of two words that are no numbers the first is
reported. -/
def ofWords (verb : Verb) (args : List String) : Except Error Command :=
  let wrongArity := .error (.wrongArity verb)
  match verb with
  | .ping =>
    match args with
    | [] => .ok .ping
    | _ => wrongArity
  | .zadd =>
    match args with
    | [key, score, member] => do .ok (.zadd key (← readScore score) member)
    | _ => wrongArity
  | .zrem =>
    match args with
    | [key, member] => .ok (.zrem key member)
    | _ => wrongArity
  | .zscore =>
    match args with
    | [key, member] => .ok (.zscore key member)
    | _ => wrongArity
  | .zrange =>
    match args with
    | [key, minScore, maxScore, offset, count] => do
      .ok (.zrange key (← readScore minScore) (← readScore maxScore) (← readCount offset)
        (← readCount count))
    | _ => wrongArity
  | .zquery =>
    match args with
    | [key, minScore, minMember, maxScore, maxMember, offset, count] => do
      .ok (.zquery key (← readScore minScore) minMember (← readScore maxScore) maxMember
        (← readCount offset) (← readCount count))
    | _ => wrongArity
  | .zrangedel =>
    match args with
    | [key, minScore, maxScore, offset, count] => do
      .ok (.zrangedel key (← readScore minScore) (← readScore maxScore) (← readCount offset)
        (← readCount count))
    | _ => wrongArity
  | .zcard =>
    match args with
    | [key] => .ok (.zcard key)
    | _ => wrongArity
  | .set =>
    match args with
    | [key, value] => .ok (.set key value)
    | _ => wrongArity
  | .get =>
    match args with
    | [key] => .ok (.get key)
    | _ => wrongArity
  | .del =>
    match args with
    | [key] => .ok (.del key)
    | _ => wrongArity
  | .incrby =>
    match args with
    | [key, amount] => do .ok (.incrby key (← readInteger amount))
    | _ => wrongArity
  | .lpush =>
    match args with
    | [key, value] => .ok (.lpush key value)
    | _ => wrongArity
  | .rpush =>
    match args with
    | [key, value] => .ok (.rpush key value)
    | _ => wrongArity
  | .lpop =>
    match args with
    | [key] => .ok (.lpop key)
    | _ => wrongArity
  | .rpop =>
    match args with
    | [key] => .ok (.rpop key)
    | _ => wrongArity
  | .llen =>
    match args with
    | [key] => .ok (.llen key)
    | _ => wrongArity
  | .lmove =>
    match args with
    | [source, destination, fromEnd, toEnd] => .ok (.lmove source destination fromEnd toEnd)
    | _ => wrongArity
  | .lrange =>
    match args with
    | [key, start, stop] => do .ok (.lrange key (← readInteger start) (← readInteger stop))
    | _ => wrongArity
  | .ltrim =>
    match args with
    | [key, start, stop] => do .ok (.ltrim key (← readInteger start) (← readInteger stop))
    | _ => wrongArity
  | .sadd =>
    match args with
    | [key, member] => .ok (.sadd key member)
    | _ => wrongArity
  | .srem =>
    match args with
    | [key, member] => .ok (.srem key member)
    | _ => wrongArity
  | .sismember =>
    match args with
    | [key, member] => .ok (.sismember key member)
    | _ => wrongArity
  | .sinter =>
    match args with
    | [] => wrongArity
    | keys => .ok (.sinter keys)
  | .scard =>
    match args with
    | [key] => .ok (.scard key)
    | _ => wrongArity
  | .hset =>
    match args with
    | key :: field :: value :: rest =>
      match pairUp rest with
      | some pairs => .ok (.hset key ((field, value) :: pairs))
      | none => wrongArity
    | _ => wrongArity
  | .hget =>
    match args with
    | [key, field] => .ok (.hget key field)
    | _ => wrongArity
  | .hmget =>
    match args with
    | key :: field :: fields => .ok (.hmget key (field :: fields))
    | _ => wrongArity
  | .hincrby =>
    match args with
    | [key, field, amount] => do .ok (.hincrby key field (← readInteger amount))
    | _ => wrongArity

def readVerb (word : String) : Except Error Verb :=
  match Verb.read? word with
  | some verb => .ok verb
  | none => .error (.unknownCommand word)

/-- The command that a line asks for. Its verb is looked at first, then the number of words after
it, and last the words themselves. -/
def read (line : String) : Except Error Command :=
  match Text.words line with
  | [] => .error .emptyCommand
  | word :: args => do ofWords (← readVerb word) args

end Request
end Keyspace
