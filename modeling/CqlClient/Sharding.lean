import CqlClient.Supported

/-!
Nodes that split their data by shard. A token belongs to one shard, and the source port of a
connection to the shard-aware port says which shard is to serve it.
-/

namespace CqlClient

inductive ShardingAlgorithm where
  | biasedTokenRoundRobin
  deriving DecidableEq

def ShardingAlgorithm.name : ShardingAlgorithm → String
  | biasedTokenRoundRobin => "biased-token-round-robin"

def ShardingAlgorithm.ofName? (name : String) : Option ShardingAlgorithm :=
  if name = biasedTokenRoundRobin.name then some biasedTokenRoundRobin else none

/-- How a node is sharded, seen from the shard that serves a connection. -/
structure Sharding where
  shard : UInt16
  count : UInt16
  count_pos : 0 < count.toNat
  partitioner : Option String
  algorithm : ShardingAlgorithm
  /-- The most significant bits of a token that are left out. -/
  ignoredBits : UInt8
  port : Option UInt16
  securePort : Option UInt16

namespace Sharding

/-- What a node says of its shards, if it has them and names a known algorithm. -/
def ofSupported? (s : Supported) : Option Sharding := do
  let option (o : ConnectionOption) := s.first? o.key
  let number (o : ConnectionOption) := s.get? Text.uint16? o.key
  let shard ← number .shard
  let count ← number .shardCount
  let algorithm ← (← option .shardingAlgorithm) |> ShardingAlgorithm.ofName?
  if count_pos : 0 < count.toNat then
    return {
      shard, count, count_pos, algorithm
      partitioner := option .partitioner
      ignoredBits := (s.get? Text.uint8? ConnectionOption.shardingIgnoreMsb.key).getD 0
      port := number .shardAwarePort
      securePort := number .shardAwarePortSsl }
  else none

/-- The same node seen from another of its shards. -/
def withShard? (s : Sharding) (shard : UInt16) : Option Sharding :=
  if shard < s.count then some { s with shard } else none

/-- The token counted from the least one, without its ignored bits. -/
def position (ignoredBits : UInt8) (token : Int64) : UInt64 :=
  let biased := token.toUInt64 + 0x8000000000000000
  if ignoredBits < 64 then biased <<< ignoredBits.toUInt64 else 0

/-- The shard of a token: shards have equal parts of all positions, in order. -/
def shardOf (s : Sharding) (token : Int64) : UInt16 :=
  UInt16.ofNat ((position s.ignoredBits token).toNat * s.count.toNat / 2 ^ 64)

/-- The least port that connections may come from. -/
def minPort : Nat := 49152

/-- The least of them from which a connection is served by the shard, if it is a port at all. -/
def firstPort (s : Sharding) : Nat :=
  let n := s.count.toNat
  minPort + (s.shard.toNat + n - minPort % n) % n

/-- The ports from which a connection is served by the shard, in increasing order. -/
def sourcePorts (s : Sharding) : List Nat :=
  let n := s.count.toNat
  List.range' s.firstPort ((65536 - s.firstPort + n - 1) / n) n

end Sharding

end CqlClient
