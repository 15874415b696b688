import Keyspace.Store.Basic
import Keyspace.Command.Request
import Keyspace.Reply

/-! # Execution: each command does one thing to the store and has one reply -/
namespace Keyspace
set_option autoImplicit false

def Command.execute (c : Command) (s : Store) : Reply × Store :=
  match c with
  | .ping => (.pong, s)
  | .zadd key score member =>
    let (added, sortedSets) := s.sortedSets.add (s.chance.coins key) key score member
    (.ofBool added, { s with sortedSets })
  | .zrem key member =>
    let (removed, sortedSets) := s.sortedSets.remove key member
    (.ofBool removed, { s with sortedSets })
  | .zscore key member =>
    match s.sortedSets.score? key member with
    | some score => (.score score, s)
    | none => (.nil, s)
  | .zrange key minScore maxScore offset count =>
    (.pairs (s.sortedSets.range key minScore maxScore offset count), s)
  | .zquery key minScore minMember maxScore maxMember offset count =>
    (.pairs (s.sortedSets.query key minScore minMember maxScore maxMember offset count), s)
  | .zrangedel key minScore maxScore offset count =>
    let (removed, sortedSets) := s.sortedSets.removeRange key minScore maxScore offset count
    (.integer removed, { s with sortedSets })
  | .zcard key => (.integer (s.sortedSets.card key), s)
  | .set key value => (.ok, { s with strings := s.strings.put key value })
  | .get key => (.ofValue? (s.strings.value? key), s)
  | .del key =>
    let (removed, strings) := s.strings.remove key
    (.ofBool removed, { s with strings })
  | .incrby key amount =>
    let (sum, strings) := s.strings.add key amount
    (.ofInt64? sum, { s with strings })
  | .lpush key value =>
    let (length, lists) := s.lists.push .left key value
    (.integer length, { s with lists })
  | .rpush key value =>
    let (length, lists) := s.lists.push .right key value
    (.integer length, { s with lists })
  | .lpop key =>
    let (value, lists) := s.lists.pop .left key
    (.ofValue? value, { s with lists })
  | .rpop key =>
    let (value, lists) := s.lists.pop .right key
    (.ofValue? value, { s with lists })
  | .llen key =>
    let (length, lists) := s.lists.length key
    (.integer length, { s with lists })
  | .lmove source destination fromEnd toEnd =>
    let (value, lists) := s.lists.move source destination fromEnd toEnd
    (.ofValue? value, { s with lists })
  | .lrange key start stop => (.ofList? (s.lists.range? key start stop), s)
  | .ltrim key start stop =>
    let (known, lists) := s.lists.trim key start stop
    (if known then .ok else .nil, { s with lists })
  | .sadd key member =>
    let (added, sets) := s.sets.add key member
    (.integer added, { s with sets })
  | .srem key member =>
    let (removed, sets) := s.sets.remove key member
    (.ofNat? removed, { s with sets })
  | .sismember key member => (.ofNat? (s.sets.count? key member), s)
  | .sinter keys => (.ofList? (s.sets.inter? s.chance.listing keys), s)
  | .scard key => (.integer (s.sets.card key), s)
  | .hset key pairs =>
    let (added, hashes) := s.hashes.put key pairs
    (.integer added, { s with hashes })
  | .hget key field => (.ofValue? (s.hashes.value? key field), s)
  | .hmget key fields => (.ofList? (s.hashes.values? key fields), s)
  | .hincrby key field amount =>
    let (sum, hashes) := s.hashes.add key field amount
    (.ofInt64? sum, { s with hashes })

/-- Does what a request line asks for; a line that asks for nothing has its error for a reply. -/
def Request.execute (line : String) (s : Store) : Reply × Store :=
  match Request.read line with
  | .ok c => c.execute s
  | .error e => (.error e.message, s)

end Keyspace
