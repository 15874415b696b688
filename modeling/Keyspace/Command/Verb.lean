import Keyspace.Text.Blank
import Keyspace.Text.Numeral

/-! # Verbs: the names that requests begin with, and what each asks for -/
namespace Keyspace
set_option autoImplicit false

inductive Verb where
  | ping
  | zadd | zrem | zscore | zrange | zquery | zrangedel | zcard
  | set | get | del | incrby
  | lpush | rpush | lpop | rpop | llen | lmove | lrange | ltrim
  | sadd | srem | sismember | sinter | scard
  | hset | hget | hmget | hincrby
  deriving DecidableEq, Repr, Inhabited

/-- How many words a request has after its verb. -/
inductive Arity where
  | exactly (count : Nat)
  | keys
  | keyAndPairs
  | keyAndFields
  deriving DecidableEq, Repr

namespace Arity

def admits : Arity → Nat → Bool
  | exactly count, n => n = count
  | keys, n => 1 ≤ n
  | keyAndPairs, n => 3 ≤ n && n % 2 = 1
  | keyAndFields, n => 2 ≤ n

def text : Arity → String
  | exactly count => Text.natText count
  | keys => "at least 1"
  | keyAndPairs => "a key and field/value pairs"
  | keyAndFields => "a key and at least 1 field"

end Arity

namespace Verb

def all : List Verb :=
  [ping, zadd, zrem, zscore, zrange, zquery, zrangedel, zcard, set, get, del, incrby, lpush, rpush,
    lpop, rpop, llen, lmove, lrange, ltrim, sadd, srem, sismember, sinter, scard, hset, hget, hmget,
    hincrby]

theorem mem_all (v : Verb) : v ∈ all := by
  cases v <;> decide

def name : Verb → String
  | ping => "PING"
  | zadd => "ZADD"
  | zrem => "ZREM"
  | zscore => "ZSCORE"
  | zrange => "ZRANGE"
  | zquery => "ZQUERY"
  | zrangedel => "ZRANGEDEL"
  | zcard => "ZCARD"
  | set => "SET"
  | get => "GET"
  | del => "DEL"
  | incrby => "INCRBY"
  | lpush => "LPUSH"
  | rpush => "RPUSH"
  | lpop => "LPOP"
  | rpop => "RPOP"
  | llen => "LLEN"
  | lmove => "LMOVE"
  | lrange => "LRANGE"
  | ltrim => "LTRIM"
  | sadd => "SADD"
  | srem => "SREM"
  | sismember => "SISMEMBER"
  | sinter => "SINTER"
  | scard => "SCARD"
  | hset => "HSET"
  | hget => "HGET"
  | hmget => "HMGET"
  | hincrby => "HINCRBY"

/-- The verb of a name, in letters of either case. -/
def read? (word : String) : Option Verb :=
  all.find? fun v => Text.asciiLower v.name = Text.asciiLower word

def arity : Verb → Arity
  | ping => .exactly 0
  | zcard | get | del | lpop | rpop | llen | scard => .exactly 1
  | zrem | zscore | set | incrby | lpush | rpush | sadd | srem | sismember | hget => .exactly 2
  | zadd | lrange | ltrim | hincrby => .exactly 3
  | lmove => .exactly 4
  | zrange | zrangedel => .exactly 5
  | zquery => .exactly 7
  | sinter => .keys
  | hset => .keyAndPairs
  | hmget => .keyAndFields

/-- Whether a good reply is a count and then as many lines. -/
def repliesInLines : Verb → Bool
  | zrange | zquery | lrange | sinter | hmget => true
  | _ => false

end Verb
end Keyspace
