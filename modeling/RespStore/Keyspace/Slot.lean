import RespStore.Number.Binary64.Read
import RespStore.Number.Binary64.Shortest
import RespStore.Value

/-! What one key holds, and the accesses that commands make to it. -/
namespace RespStore

/-- A value and the instant, in milliseconds, at which it expires if it does. -/
structure Entry where
  value : Value
  deadline : Option Nat
  deriving DecidableEq, Repr

/-- The last instant before which a deadline can be named. -/
def horizon : Nat := Nat.pow 2 63 * 1000

/-- The instant `ttl` milliseconds from `now`. A time to live too long to be named never ends. -/
def deadlineAfter (now ttl : Nat) : Option Nat :=
  if now + ttl < horizon then some (now + ttl) else none

def Entry.isExpired (now : Nat) (e : Entry) : Bool :=
  match e.deadline with
  | none => false
  | some d => d ≤ now

inductive StoreError where
  | wrongType
  | notAnInteger
  | notAFloat
  | overflow
  | notFinite
  | tooLarge
  deriving DecidableEq, Repr

def StoreError.message : StoreError → String
  | .wrongType => "WRONGTYPE Operation against a key holding the wrong kind of value"
  | .notAnInteger => "ERR value is not an integer or out of range"
  | .notAFloat => "ERR value is not a valid float"
  | .overflow => "ERR increment or decrement would overflow"
  | .notFinite => "ERR increment would produce NaN or Infinity"
  | .tooLarge => "ERR string exceeds maximum allowed size (512MB)"

inductive Ttl where
  | infinite
  | remaining (millis : Nat)
  | absent
  deriving DecidableEq, Repr

/-- What a key holds, if it is live. -/
abbrev Slot := Option Entry

namespace Slot

def string? : Slot → Except StoreError (Option Bytes)
  | none => .ok none
  | some ⟨.string data, _⟩ => .ok (some data)
  | some _ => .error .wrongType

def collection? (α : Type) [Collection α] : Slot → Except StoreError (Option α)
  | none => .ok none
  | some entry =>
    match Collection.ofValue? entry.value with
    | some c => .ok (some c)
    | none => .error .wrongType

/-- Puts a value in place, under the deadline that is there. -/
def overwrite (slot : Slot) (value : Value) : Entry := ⟨value, slot.bind (·.deadline)⟩

/-- A collection to keep, or nothing if it is empty. -/
def ofCollection {α : Type} [Collection α] (deadline : Option Nat) (c : α) : Slot :=
  if Collection.isEmpty c then none else some ⟨Collection.toValue c, deadline⟩

/-- Changes a collection, an empty one if there is none. -/
def upsert {α β : Type} [Collection α] (f : α → β × α) (slot : Slot) :
    Except StoreError (β × Slot) :=
  match collection? α slot with
  | .error e => .error e
  | .ok found =>
    let (result, c) := f (found.getD Collection.empty)
    .ok (result, ofCollection (slot.bind (·.deadline)) c)

/-- Changes a collection if there is one. -/
def update {α β : Type} [Collection α] (f : α → β × α) (slot : Slot) :
    Except StoreError (Option β × Slot) :=
  match collection? α slot with
  | .error e => .error e
  | .ok none => .ok (none, slot)
  | .ok (some c) =>
    let (result, c) := f c
    .ok (some result, ofCollection (slot.bind (·.deadline)) c)

/-- Adds to an integer in canonical text; an empty slot counts as zero. -/
def incrBy (range : IntegerRange) (n : Int) (slot : Slot) : Except StoreError (Int × Slot) :=
  match string? slot with
  | .error e => .error e
  | .ok found =>
    let current? := found.elim (some 0) (Decimal.readCanonical? range)
    match current? with
    | none => .error .notAnInteger
    | some current =>
      let sum := current + n
      if range.Contains sum then
        .ok (sum, some (overwrite slot (.string (Decimal.bytes sum))))
      else .error .overflow

/-- Adds to a finite number; an empty slot counts as zero. -/
def incrByFloat (x : Binary64) (slot : Slot) : Except StoreError (Binary64 × Slot) :=
  match string? slot with
  | .error e => .error e
  | .ok found =>
    let current? := found.elim (some Binary64.zero) fun data =>
      (Binary64.read? data).filter (·.isFinite)
    match current? with
    | none => .error .notAFloat
    | some current =>
      match current.addFinite? x with
      | none => .error .notFinite
      | some sum => .ok (sum, some (overwrite slot (.string sum.bytes)))

def ttl (now : Nat) : Slot → Ttl
  | none => .absent
  | some ⟨_, none⟩ => .infinite
  | some ⟨_, some deadline⟩ => .remaining (deadline - now)

/-- Sets the deadline of what is there, and tells whether anything is. -/
def expire (deadline : Option Nat) (slot : Slot) : Bool × Slot :=
  (slot.isSome, slot.map fun e => { e with deadline })

/-- Takes the deadline away, and tells whether there was one. -/
def persist (slot : Slot) : Bool × Slot :=
  ((slot.bind (·.deadline)).isSome, slot.map fun e => { e with deadline := none })

end Slot
end RespStore
