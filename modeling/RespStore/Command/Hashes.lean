import RespStore.Command.Answer
import RespStore.Request.Reader

/-! Commands on hashes. -/
namespace RespStore

inductive HashCommand where
  | hdel (key : Bytes) (fields : List Bytes)
  | hexists (key field : Bytes)
  | hget (key field : Bytes)
  | hgetall (key : Bytes)
  | hlen (key : Bytes)
  | hmget (key : Bytes) (fields : List Bytes)
  | hmset (key : Bytes) (bindings : List (Bytes × Bytes))
  | hset (key : Bytes) (bindings : List (Bytes × Bytes))
  deriving DecidableEq, Repr

namespace HashCommand

def name : HashCommand → String
  | .hdel .. => "hdel"
  | .hexists .. => "hexists"
  | .hget .. => "hget"
  | .hgetall .. => "hgetall"
  | .hlen .. => "hlen"
  | .hmget .. => "hmget"
  | .hmset .. => "hmset"
  | .hset .. => "hset"

def reader? : String → Option (Reader HashCommand)
  | "hdel" => some do return .hdel (← .bytes) (← .remaining)
  | "hexists" => some do return .hexists (← .bytes) (← .bytes)
  | "hget" => some do return .hget (← .bytes) (← .bytes)
  | "hgetall" => some do return .hgetall (← .bytes)
  | "hlen" => some do return .hlen (← .bytes)
  | "hmget" => some do return .hmget (← .bytes) (← .remaining)
  | "hmset" => some do return .hmset (← .bytes) (← .pairs)
  | "hset" => some do return .hset (← .bytes) (← .pairs)
  | _ => none

def setField (h : Table Bytes) (binding : Bytes × Bytes) : Bool × Table Bytes :=
  (!h.contains binding.1, h.insert binding.1 binding.2)

def removeField (h : Table Bytes) (field : Bytes) : Bool × Table Bytes :=
  (h.contains field, h.erase field)

/-- Binds fields, and tells how many were free before. -/
def setFields (ks : Keyspace) (key : Bytes) (bindings : List (Bytes × Bytes)) :
    Except StoreError Nat × Keyspace :=
  ks.upsert key fun h => tally setField h bindings

def field? (found : Option (Table Bytes)) (field : Bytes) : Option Bytes :=
  found.bind (·.get? field)

def exec (ks : Keyspace) : HashCommand → Outcome
  | .hdel key fields =>
    answer (fun removed => .count (removed.getD 0))
      (ks.update key fun h => tally removeField h fields)
  | .hexists key field =>
    answer (fun found => .flag (field? found field).isSome) (ks.getAs (Table Bytes) key)
  | .hget key field =>
    answer (fun found => .optionalBulk (field? found field)) (ks.getAs (Table Bytes) key)
  | .hgetall key =>
    answer (fun found => .bulkArray ((found.elim [] Table.toList).flatMap fun (f, v) => [f, v]))
      (ks.getAs (Table Bytes) key)
  | .hlen key => answer (fun found => .count (found.elim 0 Table.size)) (ks.getAs (Table Bytes) key)
  | .hmget key fields =>
    answer (fun found => .array (fields.map fun f => .optionalBulk (field? found f)))
      (ks.getAs (Table Bytes) key)
  | .hmset key bindings => answer (fun _ => .ok) (setFields ks key bindings)
  | .hset key bindings => answer .count (setFields ks key bindings)

end HashCommand
end RespStore
