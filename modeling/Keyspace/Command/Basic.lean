import Keyspace.Score.Basic
import Keyspace.Command.Verb

/-! # Commands: requests with their arguments read -/
namespace Keyspace
set_option autoImplicit false

inductive Command where
  | ping
  | zadd (key : String) (score : Score) (member : String)
  | zrem (key member : String)
  | zscore (key member : String)
  | zrange (key : String) (minScore maxScore : Score) (offset count : Nat)
  | zquery (key : String) (minScore : Score) (minMember : String) (maxScore : Score)
      (maxMember : String) (offset count : Nat)
  | zrangedel (key : String) (minScore maxScore : Score) (offset count : Nat)
  | zcard (key : String)
  | set (key value : String)
  | get (key : String)
  | del (key : String)
  | incrby (key : String) (amount : Int64)
  | lpush (key value : String)
  | rpush (key value : String)
  | lpop (key : String)
  | rpop (key : String)
  | llen (key : String)
  | lmove (source destination fromEnd toEnd : String)
  | lrange (key : String) (start stop : Int64)
  | ltrim (key : String) (start stop : Int64)
  | sadd (key member : String)
  | srem (key member : String)
  | sismember (key member : String)
  | sinter (keys : List String)
  | scard (key : String)
  | hset (key : String) (pairs : List (String × String))
  | hget (key field : String)
  | hmget (key : String) (fields : List String)
  | hincrby (key field : String) (amount : Int64)
  deriving DecidableEq, Repr, Inhabited

namespace Command

def verb : Command → Verb
  | ping => .ping
  | zadd .. => .zadd
  | zrem .. => .zrem
  | zscore .. => .zscore
  | zrange .. => .zrange
  | zquery .. => .zquery
  | zrangedel .. => .zrangedel
  | zcard .. => .zcard
  | set .. => .set
  | get .. => .get
  | del .. => .del
  | incrby .. => .incrby
  | lpush .. => .lpush
  | rpush .. => .rpush
  | lpop .. => .lpop
  | rpop .. => .rpop
  | llen .. => .llen
  | lmove .. => .lmove
  | lrange .. => .lrange
  | ltrim .. => .ltrim
  | sadd .. => .sadd
  | srem .. => .srem
  | sismember .. => .sismember
  | sinter .. => .sinter
  | scard .. => .scard
  | hset .. => .hset
  | hget .. => .hget
  | hmget .. => .hmget
  | hincrby .. => .hincrby

end Command
end Keyspace
