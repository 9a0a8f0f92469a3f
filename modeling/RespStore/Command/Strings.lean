import RespStore.Bits
import RespStore.Command.Answer
import RespStore.Request.Reader

/-! Commands on strings, and on the numbers and bits that strings hold. -/
namespace RespStore

inductive SetCondition where
  | ifAbsent
  | ifPresent
  deriving DecidableEq, Repr

inductive SetExpiry where
  | ttl (millis : Nat)
  | keep
  deriving DecidableEq, Repr

structure SetOptions where
  condition : Option SetCondition := none
  expiry : Option SetExpiry := none
  get : Bool := false
  deriving DecidableEq, Repr

inductive BitUnit where
  | byte
  | bit
  deriving DecidableEq, Repr

structure BitRange where
  start : Int64
  stop : Int64
  unit : BitUnit
  deriving DecidableEq, Repr

inductive StringCommand where
  | append (key value : Bytes)
  | bitcount (key : Bytes) (range : Option BitRange)
  | decr (key : Bytes)
  | decrby (key : Bytes) (decrement : Int64)
  | get (key : Bytes)
  | getbit (key : Bytes) (offset : Nat)
  | getdel (key : Bytes)
  | getrange (key : Bytes) (start stop : Int64)
  | getset (key value : Bytes)
  | incr (key : Bytes)
  | incrby (key : Bytes) (increment : Int64)
  | incrbyfloat (key : Bytes) (increment : Binary64)
  | mget (keys : List Bytes)
  | mset (bindings : List (Bytes × Bytes))
  | psetex (key : Bytes) (ttl : Nat) (value : Bytes)
  | set (key value : Bytes) (options : SetOptions)
  | setbit (key : Bytes) (offset : Nat) (bit : Bool)
  | setex (key : Bytes) (ttl : Nat) (value : Bytes)
  | setnx (key value : Bytes)
  | strlen (key : Bytes)
  deriving DecidableEq, Repr

inductive SetWord where
  | nx
  | xx
  | ex
  | px
  | keepttl
  | get
  deriving DecidableEq, Repr

namespace SetOptions

def words : List (String × SetWord) :=
  [("NX", .nx), ("XX", .xx), ("EX", .ex), ("PX", .px), ("KEEPTTL", .keepttl), ("GET", .get)]

/-- Reads options in any order: one condition and one expiry at most. -/
def read (o : SetOptions) : List Frame → Except RequestError SetOptions
  | [] => .ok o
  | a :: rest => do
    match ← a.keyword words with
    | .nx =>
      if o.condition.isSome then .error .badSyntax
      else read { o with condition := some .ifAbsent } rest
    | .xx =>
      if o.condition.isSome then .error .badSyntax
      else read { o with condition := some .ifPresent } rest
    | .keepttl =>
      if o.expiry.isSome then .error .badSyntax else read { o with expiry := some .keep } rest
    | .get => read { o with get := true } rest
    | .ex =>
      if o.expiry.isSome then .error .badSyntax
      else
        match rest with
        | [] => .error .endOfRequest
        | n :: rest => do
          let ttl ← Reader.ttlOf "set" 1000 (← n.int64)
          read { o with expiry := some (.ttl ttl) } rest
    | .px =>
      if o.expiry.isSome then .error .badSyntax
      else
        match rest with
        | [] => .error .endOfRequest
        | n :: rest => do
          let ttl ← Reader.ttlOf "set" 1 (← n.int64)
          read { o with expiry := some (.ttl ttl) } rest
termination_by structural args => args

end SetOptions
namespace StringCommand

def name : StringCommand → String
  | .append .. => "append"
  | .bitcount .. => "bitcount"
  | .decr .. => "decr"
  | .decrby .. => "decrby"
  | .get .. => "get"
  | .getbit .. => "getbit"
  | .getdel .. => "getdel"
  | .getrange .. => "getrange"
  | .getset .. => "getset"
  | .incr .. => "incr"
  | .incrby .. => "incrby"
  | .incrbyfloat .. => "incrbyfloat"
  | .mget .. => "mget"
  | .mset .. => "mset"
  | .psetex .. => "psetex"
  | .set .. => "set"
  | .setbit .. => "setbit"
  | .setex .. => "setex"
  | .setnx .. => "setnx"
  | .strlen .. => "strlen"

def bitRange : Reader BitRange := do
  let start ← .int64
  let stop ← .int64
  let unit ← .optional (.keyword [("BYTE", BitUnit.byte), ("BIT", .bit)])
  return ⟨start, stop, unit.getD .byte⟩

def reader? : String → Option (Reader StringCommand)
  | "append" => some do return .append (← .bytes) (← .bytes)
  | "bitcount" => some do return .bitcount (← .bytes) (← .optional bitRange)
  | "decr" => some do return .decr (← .bytes)
  | "decrby" => some do return .decrby (← .bytes) (← .int64)
  | "get" => some do return .get (← .bytes)
  | "getbit" => some do return .getbit (← .bytes) (← .bitOffset)
  | "getdel" => some do return .getdel (← .bytes)
  | "getrange" => some do return .getrange (← .bytes) (← .int64) (← .int64)
  | "getset" => some do return .getset (← .bytes) (← .bytes)
  | "incr" => some do return .incr (← .bytes)
  | "incrby" => some do return .incrby (← .bytes) (← .int64)
  | "incrbyfloat" => some do return .incrbyfloat (← .bytes) (← .float)
  | "mget" => some do return .mget (← .remaining)
  | "mset" => some do return .mset (← .pairs)
  | "psetex" => some do return .psetex (← .bytes) (← .ttl "psetex" 1) (← .bytes)
  | "set" => some do return .set (← .bytes) (← .bytes) (← .all (SetOptions.read {}))
  | "setbit" => some do return .setbit (← .bytes) (← .bitOffset) (← .bit)
  | "setex" => some do return .setex (← .bytes) (← .ttl "setex" 1000) (← .bytes)
  | "setnx" => some do return .setnx (← .bytes) (← .bytes)
  | "strlen" => some do return .strlen (← .bytes)
  | _ => none

/-- The largest string that appending may build. -/
def maxLength : Nat := 512 * 1024 * 1024

def appendTo (value : Bytes) (slot : Slot) : Except StoreError (Nat × Slot) := do
  let found ← Slot.string? slot
  if found.isSome ∧ maxLength < (found.getD []).length + value.length then .error .tooLarge
  else
    let data := found.getD [] ++ value
    .ok (data.length, some (Slot.overwrite slot (.string data)))

def countBits (range : Option BitRange) (data : Bytes) : Nat :=
  match range with
  | none => (Bits.ofBytes data).count true
  | some ⟨start, stop, .byte⟩ =>
    match Span.clampBytes? start.toInt stop.toInt data.length with
    | none => 0
    | some span => (Bits.ofBytes (span.slice data)).count true
  | some ⟨start, stop, .bit⟩ =>
    match Span.clampBytes? start.toInt stop.toInt (data.length * 8) with
    | none => 0
    | some span => (span.slice (Bits.ofBytes data)).count true

def substring (start stop : Int64) (data : Bytes) : Bytes :=
  match Span.clampBytes? start.toInt stop.toInt data.length with
  | none => []
  | some span => span.slice data

def setBit (offset : Nat) (bit : Bool) (slot : Slot) : Except StoreError (Bool × Slot) := do
  let data := (← Slot.string? slot).getD []
  .ok (Bits.get data offset, some (Slot.overwrite slot (.string (Bits.set data offset bit))))

def getAndDelete (slot : Slot) : Except StoreError (Option Bytes × Slot) := do
  let found ← Slot.string? slot
  .ok (found, if found.isSome then none else slot)

def getAndSet (value : Bytes) (slot : Slot) : Except StoreError (Option Bytes × Slot) := do
  let found ← Slot.string? slot
  .ok (found, some ⟨.string value, none⟩)

def setIfAbsent (value : Bytes) : Slot → Bool × Slot
  | none => (true, some ⟨.string value, none⟩)
  | some entry => (false, some entry)

def write (ks : Keyspace) (key value : Bytes) : Option SetExpiry → Keyspace
  | none => ks.set key (.string value)
  | some (.ttl millis) => ks.setWithTtl key (.string value) millis
  | some .keep => ks.overwrite key (.string value)

/-- Writes a value if its condition holds. When the old string is asked for, a value of another
type fails the command before anything is written. -/
def setWith (ks : Keyspace) (key value : Bytes) (o : SetOptions) :
    Outcome :=
  let (old, ks) := if o.get then ks.getString key else (.ok none, ks)
  match old with
  | .error e => (.error e, ks)
  | .ok old =>
    let (holds, ks) :=
      match o.condition with
      | none => (true, ks)
      | some condition =>
        let (present, ks) := ks.exists? key
        (present == (condition == SetCondition.ifPresent), ks)
    let ks := if holds then write ks key value o.expiry else ks
    (.ok (if o.get then .optionalBulk old else if holds then .ok else .nullBulk), ks)

def incrementBy (ks : Keyspace) (key : Bytes) (n : Int) : Outcome :=
  answer (fun sum => .integer (Int64.ofInt sum)) (ks.incrBy .int64 key n)

def exec (ks : Keyspace) : StringCommand → Outcome
  | .append key value => answer .count (ks.tryAccess key (appendTo value))
  | .bitcount key range =>
    answer (fun found => .count (found.elim 0 (countBits range))) (ks.getString key)
  | .decr key => incrementBy ks key (-1)
  | .decrby key decrement =>
    if decrement = Int64.minValue then (.error .overflow, ks)
    else incrementBy ks key (-decrement.toInt)
  | .get key => answer .optionalBulk (ks.getString key)
  | .getbit key offset =>
    answer (fun found => .flag (Bits.get (found.getD []) offset)) (ks.getString key)
  | .getdel key => answer .optionalBulk (ks.tryAccess key getAndDelete)
  | .getrange key start stop =>
    answer (fun found => .bulk (substring start stop (found.getD []))) (ks.getString key)
  | .getset key value => answer .optionalBulk (ks.tryAccess key (getAndSet value))
  | .incr key => incrementBy ks key 1
  | .incrby key increment => incrementBy ks key increment.toInt
  | .incrbyfloat key increment =>
    answer (fun sum => .bulk sum.bytes) (ks.incrByFloat key increment)
  | .mget keys =>
    let (found, ks) := ks.forEach Keyspace.getString keys
    (.ok (.array (found.map fun r => .optionalBulk (r.toOption.bind id))), ks)
  | .mset bindings =>
    (.ok .ok, bindings.foldl (fun ks (key, value) => ks.set key (.string value)) ks)
  | .psetex key ttl value => (.ok .ok, ks.setWithTtl key (.string value) ttl)
  | .set key value options => setWith ks key value options
  | .setbit key offset bit => answer .flag (ks.tryAccess key (setBit offset bit))
  | .setex key ttl value => (.ok .ok, ks.setWithTtl key (.string value) ttl)
  | .setnx key value =>
    let (written, ks) := ks.access key (setIfAbsent value)
    (.ok (.flag written), ks)
  | .strlen key => answer (fun found => .count (found.getD []).length) (ks.getString key)

end StringCommand
end RespStore
