import RespStore.Keyspace.Slot

/-! The keyspace: entries by key, the clock, and counters. An entry whose deadline has passed stays
until its key is accessed. -/
namespace RespStore

structure Stats where
  connectedClients : Nat := 0
  connectionsReceived : Nat := 0
  commandsProcessed : Nat := 0
  expiredKeys : Nat := 0
  deriving DecidableEq, Repr

structure Keyspace where
  entries : Table Entry := .empty
  /-- Milliseconds since the start. -/
  now : Nat := 0
  stats : Stats := {}
  deriving DecidableEq, Repr

namespace Keyspace

def advance (ks : Keyspace) (millis : Nat) : Keyspace := { ks with now := ks.now + millis }

/-- Drops what a key holds if it has expired, and tells whether it had. -/
def evict (ks : Keyspace) (key : Bytes) : Bool × Keyspace :=
  if (ks.entries.get? key).any (·.isExpired ks.now) then
    (true, { ks with
      entries := ks.entries.erase key
      stats := { ks.stats with expiredKeys := ks.stats.expiredKeys + 1 } })
  else (false, ks)

/-- Accesses what a live key holds, and puts back what the access leaves. -/
def access {α : Type} (ks : Keyspace) (key : Bytes) (f : Slot → α × Slot) : α × Keyspace :=
  let ks := (ks.evict key).2
  let (result, slot) := f (ks.entries.get? key)
  (result, { ks with entries := ks.entries.set key slot })

/-- An access that leaves everything in place. -/
def read {α : Type} (ks : Keyspace) (key : Bytes) (f : Slot → α) : α × Keyspace :=
  ks.access key fun slot => (f slot, slot)

/-- An access that leaves everything in place if it fails. -/
def tryAccess {α : Type} (ks : Keyspace) (key : Bytes)
    (f : Slot → Except StoreError (α × Slot)) : Except StoreError α × Keyspace :=
  ks.access key fun slot =>
    match f slot with
    | .ok (result, left) => (.ok result, left)
    | .error e => (.error e, slot)

/-- Binds a key in place of all that it held, expired or not. -/
def put (ks : Keyspace) (key : Bytes) (entry : Entry) : Keyspace :=
  { ks with entries := ks.entries.insert key entry }

def set (ks : Keyspace) (key : Bytes) (value : Value) : Keyspace := ks.put key ⟨value, none⟩

def setWithTtl (ks : Keyspace) (key : Bytes) (value : Value) (ttl : Nat) : Keyspace :=
  ks.put key ⟨value, deadlineAfter ks.now ttl⟩

def get (ks : Keyspace) (key : Bytes) : Option Value × Keyspace :=
  ks.read key (·.map (·.value))

def getString (ks : Keyspace) (key : Bytes) : Except StoreError (Option Bytes) × Keyspace :=
  ks.read key Slot.string?

def getAs (α : Type) [Collection α] (ks : Keyspace) (key : Bytes) :
    Except StoreError (Option α) × Keyspace :=
  ks.read key (Slot.collection? α)

def exists? (ks : Keyspace) (key : Bytes) : Bool × Keyspace := ks.read key (·.isSome)

def ttl (ks : Keyspace) (key : Bytes) : Ttl × Keyspace := ks.read key (Slot.ttl ks.now)

def overwrite (ks : Keyspace) (key : Bytes) (value : Value) : Keyspace :=
  (ks.access key fun slot => ((), some (Slot.overwrite slot value))).2

def remove (ks : Keyspace) (key : Bytes) : Option Value × Keyspace :=
  ks.access key fun slot => (slot.map (·.value), none)

def expire (ks : Keyspace) (key : Bytes) (ttl : Nat) : Bool × Keyspace :=
  ks.access key (Slot.expire (deadlineAfter ks.now ttl))

def persist (ks : Keyspace) (key : Bytes) : Bool × Keyspace := ks.access key Slot.persist

def upsert {α β : Type} [Collection α] (ks : Keyspace) (key : Bytes) (f : α → β × α) :
    Except StoreError β × Keyspace :=
  ks.tryAccess key (Slot.upsert f)

def update {α β : Type} [Collection α] (ks : Keyspace) (key : Bytes) (f : α → β × α) :
    Except StoreError (Option β) × Keyspace :=
  ks.tryAccess key (Slot.update f)

def incrBy (ks : Keyspace) (range : IntegerRange) (key : Bytes) (n : Int) :
    Except StoreError Int × Keyspace :=
  ks.tryAccess key (Slot.incrBy range n)

def incrByFloat (ks : Keyspace) (key : Bytes) (x : Binary64) :
    Except StoreError Binary64 × Keyspace :=
  ks.tryAccess key (Slot.incrByFloat x)

/-- The entries that have not expired. -/
def live (ks : Keyspace) : Table Entry := ks.entries.filter fun b => !b.2.isExpired ks.now

def size (ks : Keyspace) : Nat := ks.live.size

def expires (ks : Keyspace) : Nat := ks.live.toList.countP fun b => b.2.deadline.isSome

def keys (ks : Keyspace) : List Bytes := ks.live.keys

def flush (ks : Keyspace) : Keyspace := { ks with entries := .empty }

def forEach {α : Type} (op : Keyspace → Bytes → α × Keyspace) :
    Keyspace → List Bytes → List α × Keyspace
  | ks, [] => ([], ks)
  | ks, key :: rest =>
    let (result, ks) := op ks key
    let (results, ks) := forEach op ks rest
    (result :: results, ks)

def mapStats (ks : Keyspace) (f : Stats → Stats) : Keyspace := { ks with stats := f ks.stats }

end Keyspace
end RespStore
