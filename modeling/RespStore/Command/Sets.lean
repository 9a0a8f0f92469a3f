import RespStore.Command.Answer
import RespStore.Glob
import RespStore.Request.Reader

/-! Commands on sets. -/
namespace RespStore

inductive SetCommand where
  | sadd (key : Bytes) (members : List Bytes)
  | scard (key : Bytes)
  | sismember (key member : Bytes)
  | smembers (key : Bytes)
  | srem (key : Bytes) (members : List Bytes)
  | sscan (key : Bytes) (cursor : Nat) (pattern : Option String) (count : Option Nat)
  deriving DecidableEq, Repr

inductive ScanWord where
  | pattern
  | count
  deriving DecidableEq, Repr

namespace SetCommand

def name : SetCommand → String
  | .sadd .. => "sadd"
  | .scard .. => "scard"
  | .sismember .. => "sismember"
  | .smembers .. => "smembers"
  | .srem .. => "srem"
  | .sscan .. => "sscan"

def scanWords : List (String × ScanWord) := [("MATCH", .pattern), ("COUNT", .count)]

/-- Reads the options of a scan, of which the last of each kind holds. -/
def scanOptions (pattern : Option String) (count : Option Nat) :
    List Frame → Except RequestError (Option String × Option Nat)
  | [] => .ok (pattern, count)
  | a :: rest => do
    match ← a.keyword scanWords with
    | .pattern =>
      match rest with
      | [] => .error .endOfRequest
      | p :: rest => do
        let text ← p.text
        scanOptions (some text) count rest
    | .count =>
      match rest with
      | [] => .error .endOfRequest
      | n :: rest => do
        let n ← n.int64
        if n.toInt < 1 then .error .badSyntax else scanOptions pattern (some n.toInt.toNat) rest
termination_by structural args => args

def cursor : Reader Nat := do
  let n ← .int64
  if n.toInt < 0 then throw .invalidCursor else return n.toInt.toNat

def scan : Reader SetCommand := do
  let key ← .bytes
  let start ← cursor
  let (pattern, count) ← .all (scanOptions none none)
  return .sscan key start pattern count

def reader? : String → Option (Reader SetCommand)
  | "sadd" => some do return .sadd (← .bytes) (← .remaining)
  | "scard" => some do return .scard (← .bytes)
  | "sismember" => some do return .sismember (← .bytes) (← .bytes)
  | "smembers" => some do return .smembers (← .bytes)
  | "srem" => some do return .srem (← .bytes) (← .remaining)
  | "sscan" => some scan
  | _ => none

def addMember (s : ByteSet) (member : Bytes) : Bool × ByteSet :=
  (!s.contains member, s.insert member ())

def removeMember (s : ByteSet) (member : Bytes) : Bool × ByteSet :=
  (s.contains member, s.erase member)

def members (found : Option ByteSet) : List Bytes := (found.getD .empty).keys

def matching [Glob.Matcher] (pattern : Option String) (members : List Bytes) : List Bytes :=
  match pattern with
  | none => members
  | some pattern => members.filter (Glob.matchesKey pattern)

def exec [Glob.Matcher] (ks : Keyspace) : SetCommand → Outcome
  | .sadd key members => answer .count (ks.upsert key fun s => tally addMember s members)
  | .scard key => answer (fun found => .count (members found).length) (ks.getAs ByteSet key)
  | .sismember key member =>
    answer (fun found => .flag ((found.getD .empty).contains member)) (ks.getAs ByteSet key)
  | .smembers key => answer (fun found => .bulkArray (members found)) (ks.getAs ByteSet key)
  | .srem key members =>
    answer (fun removed => .count (removed.getD 0))
      (ks.update key fun s => tally removeMember s members)
  -- All members are replied at once, whatever the cursor and the count.
  | .sscan key _ pattern _ =>
    answer (fun found =>
      .array [.bulk (Bytes.ofString "0"), .bulkArray (matching pattern (members found))])
      (ks.getAs ByteSet key)

end SetCommand
end RespStore
