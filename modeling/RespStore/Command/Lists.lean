import RespStore.Command.Answer
import RespStore.Request.Reader

/-! Commands on lists. -/
namespace RespStore

inductive ListCommand where
  /-- Waits up to `timeout` nanoseconds, for ever if that is zero, for an element under a key. -/
  | brpop (keys : List Bytes) (timeout : Nat)
  | llen (key : Bytes)
  | lpop (key : Bytes) (count : Option Nat)
  | lpush (key : Bytes) (values : List Bytes)
  | lrange (key : Bytes) (start stop : Int64)
  | lrem (key : Bytes) (count : Int64) (element : Bytes)
  | rpop (key : Bytes) (count : Option Nat)
  | rpush (key : Bytes) (values : List Bytes)
  deriving DecidableEq, Repr

namespace ListCommand

def name : ListCommand → String
  | .brpop .. => "brpop"
  | .llen .. => "llen"
  | .lpop .. => "lpop"
  | .lpush .. => "lpush"
  | .lrange .. => "lrange"
  | .lrem .. => "lrem"
  | .rpop .. => "rpop"
  | .rpush .. => "rpush"

/-- A number of seconds that is finite and not negative and has less than 2⁶⁴ whole ones, in
nanoseconds. -/
def timeoutOf (data : Bytes) : Except RequestError Nat :=
  match (Binary64.read? data).filter (·.isFinite) with
  | none => .error .invalidTimeout
  | some seconds =>
    if seconds < .zero then .error .negativeTimeout
    else if .ofInt (Nat.pow 2 64) ≤ seconds then .error .invalidTimeout
    else .ok seconds.toNanoseconds

def keysAndTimeout : Reader ListCommand := do
  let args ← Reader.remaining
  match args.reverse with
  | timeout :: key :: keys => return .brpop (key :: keys).reverse (← timeoutOf timeout)
  | _ => throw .endOfRequest

def reader? : String → Option (Reader ListCommand)
  | "brpop" => some keysAndTimeout
  | "llen" => some do return .llen (← .bytes)
  | "lpop" => some do return .lpop (← .bytes) (← .optional .elementCount)
  | "lpush" => some do return .lpush (← .bytes) (← .remaining)
  | "lrange" => some do return .lrange (← .bytes) (← .int64) (← .int64)
  | "lrem" => some do return .lrem (← .bytes) (← .int64) (← .bytes)
  | "rpop" => some do return .rpop (← .bytes) (← .optional .elementCount)
  | "rpush" => some do return .rpush (← .bytes) (← .remaining)
  | _ => none

def popHead (n : Nat) (items : List Bytes) : List Bytes × List Bytes :=
  (items.take n, items.drop n)

/-- Takes elements off the tail, first the tail. -/
def popTail (n : Nat) (items : List Bytes) : List Bytes × List Bytes :=
  ((items.drop (items.length - n)).reverse, items.take (items.length - n))

/-- The list without its first `n` occurrences of an element. -/
def eraseFirst (element : Bytes) : Nat → List Bytes → List Bytes
  | 0, items => items
  | _, [] => []
  | n + 1, item :: rest =>
    if item = element then eraseFirst element n rest else item :: eraseFirst element (n + 1) rest

/-- Removes occurrences of an element, all of them if `count` is zero, else those nearest the head
or, if `count` is negative, the tail. -/
def removeOccurrences (count : Int) (element : Bytes) (items : List Bytes) : Nat × List Bytes :=
  let limit := if count = 0 then items.length else count.natAbs
  let left :=
    if count < 0 then (eraseFirst element limit items.reverse).reverse
    else eraseFirst element limit items
  (items.length - left.length, left)

/-- Without a count the element itself is replied. -/
def popReply (count : Option Nat) (popped : Option (List Bytes)) : Frame :=
  match popped, count with
  | none, some _ => .nullArray
  | none, none => .nullBulk
  | some values, some _ => .bulkArray values
  | some values, none => .optionalBulk values.head?

/-- Takes the tail off the first of some lists that has one. -/
def popFirst (ks : Keyspace) : List Bytes → Outcome
  | [] => (.ok .nullArray, ks)
  | key :: rest =>
    match ks.update key (popTail 1) with
    | (.error e, ks) => (.error e, ks)
    | (.ok (some [value]), ks) => (.ok (.bulkArray [key, value]), ks)
    | (.ok _, ks) => popFirst ks rest

def exec (ks : Keyspace) : ListCommand → Outcome
  | .brpop keys _ => popFirst ks keys
  | .llen key => answer (fun found => .count (found.elim 0 List.length)) (ks.getAs (List Bytes) key)
  | .lpop key count => answer (popReply count) (ks.update key (popHead (count.getD 1)))
  | .lpush key values =>
    answer .count (ks.upsert key fun items =>
      let items := values.reverse ++ items
      (items.length, items))
  | .lrange key start stop =>
    answer (fun found =>
      let items := found.getD []
      .bulkArray (((Span.clamp? start.toInt stop.toInt items.length).map (·.slice items)).getD []))
      (ks.getAs (List Bytes) key)
  | .lrem key count element =>
    answer (fun removed => .count (removed.getD 0))
      (ks.update key (removeOccurrences count.toInt element))
  | .rpop key count => answer (popReply count) (ks.update key (popTail (count.getD 1)))
  | .rpush key values =>
    answer .count (ks.upsert key fun items =>
      let items := items ++ values
      (items.length, items))

end ListCommand
end RespStore
