import RespStore.Glob
import RespStore.Keyspace
import RespStore.Request.Reader

/-! Commands on keys of any type. -/
namespace RespStore

inductive KeyCommand where
  | del (keys : List Bytes)
  | existing (keys : List Bytes)
  | expire (key : Bytes) (seconds : Int64)
  | keys (pattern : String)
  | persist (key : Bytes)
  | pexpire (key : Bytes) (millis : Int64)
  | pttl (key : Bytes)
  | ttl (key : Bytes)
  | typeOf (key : Bytes)
  deriving DecidableEq, Repr

namespace KeyCommand

def name : KeyCommand → String
  | .del .. => "del"
  | .existing .. => "exists"
  | .expire .. => "expire"
  | .keys .. => "keys"
  | .persist .. => "persist"
  | .pexpire .. => "pexpire"
  | .pttl .. => "pttl"
  | .ttl .. => "ttl"
  | .typeOf .. => "type"

def reader? : String → Option (Reader KeyCommand)
  | "del" => some do return .del (← .remaining)
  | "exists" => some do return .existing (← .remaining)
  | "expire" => some do return .expire (← .bytes) (← .int64)
  | "keys" => some do return .keys (← .text)
  | "persist" => some do return .persist (← .bytes)
  | "pexpire" => some do return .pexpire (← .bytes) (← .int64)
  | "pttl" => some do return .pttl (← .bytes)
  | "ttl" => some do return .ttl (← .bytes)
  | "type" => some do return .typeOf (← .bytes)
  | _ => none

/-- Lets a key expire after a number of milliseconds; one that is not positive removes it. -/
def expireAfter (ks : Keyspace) (key : Bytes) (millis : Int) : Bool × Keyspace :=
  if millis ≤ 0 then
    let (removed, ks) := ks.remove key
    (removed.isSome, ks)
  else ks.expire key millis.toNat

/-- Seconds in milliseconds, as near as a 64-bit integer comes to them. -/
def secondsToMillis (seconds : Int64) : Int :=
  max Int64.minValue.toInt (min (seconds.toInt * 1000) Int64.maxValue.toInt)

/-- Milliseconds left as a 64-bit integer, -1 without a deadline and -2 without a key. -/
def ttlReply (unit : Nat → Nat) : Ttl → Frame
  | .infinite => .integer (-1)
  | .absent => .integer (-2)
  | .remaining millis => .count (unit millis)

def exec [Glob.Matcher] (ks : Keyspace) : KeyCommand → Frame × Keyspace
  | .del targets =>
    let (removed, ks) := ks.forEach Keyspace.remove targets
    (.count (removed.countP (·.isSome)), ks)
  | .existing targets =>
    let (found, ks) := ks.forEach Keyspace.exists? targets
    (.count (found.countP id), ks)
  | .expire key seconds =>
    let (applied, ks) := expireAfter ks key (secondsToMillis seconds)
    (.flag applied, ks)
  | .keys pattern => (.bulkArray (ks.keys.filter (Glob.matchesKey pattern)), ks)
  | .persist key =>
    let (removed, ks) := ks.persist key
    (.flag removed, ks)
  | .pexpire key millis =>
    let (applied, ks) := expireAfter ks key millis.toInt
    (.flag applied, ks)
  | .pttl key =>
    let (left, ks) := ks.ttl key
    (ttlReply id left, ks)
  | .ttl key =>
    let (left, ks) := ks.ttl key
    (ttlReply (fun millis => (millis + 500) / 1000) left, ks)
  | .typeOf key =>
    let (value, ks) := ks.get key
    (.simple (value.elim "none" Value.typeName), ks)

end KeyCommand
end RespStore
