import RespStore.Command.Answer
import RespStore.Number.Binary64.Shortest
import RespStore.Request.Reader

/-! Commands on sorted sets. -/
namespace RespStore

inductive ScoreCondition where
  | ifAbsent
  | ifPresent
  deriving DecidableEq, Repr

/-- A page of a range. A negative count takes all that is left. -/
structure Limit where
  offset : Int64
  count : Int64
  deriving DecidableEq, Repr

inductive SortedSetCommand where
  | zadd (key : Bytes) (condition : Option ScoreCondition) (changed : Bool)
    (members : List (Binary64 × Bytes))
  | zcard (key : Bytes)
  | zrange (key : Bytes) (start stop : Int64) (withScores : Bool)
  | zrangebyscore (key : Bytes) (min max : ScoreBound) (withScores : Bool) (limit : Option Limit)
  | zrem (key : Bytes) (members : List Bytes)
  | zremrangebyrank (key : Bytes) (start stop : Int64)
  | zremrangebyscore (key : Bytes) (min max : ScoreBound)
  | zrevrange (key : Bytes) (start stop : Int64) (withScores : Bool)
  | zscore (key member : Bytes)
  deriving DecidableEq, Repr

inductive AddWord where
  | nx
  | xx
  | ch
  | incr
  deriving DecidableEq, Repr

inductive RangeWord where
  | withScores
  | limit
  deriving DecidableEq, Repr

namespace SortedSetCommand

def name : SortedSetCommand → String
  | .zadd .. => "zadd"
  | .zcard .. => "zcard"
  | .zrange .. => "zrange"
  | .zrangebyscore .. => "zrangebyscore"
  | .zrem .. => "zrem"
  | .zremrangebyrank .. => "zremrangebyrank"
  | .zremrangebyscore .. => "zremrangebyscore"
  | .zrevrange .. => "zrevrange"
  | .zscore .. => "zscore"

def addWords : List (String × AddWord) :=
  [("NX", .nx), ("XX", .xx), ("CH", .ch), ("INCR", .incr)]

def scoredMembers : List Frame → Except RequestError (List (Binary64 × Bytes))
  | [] => .error .endOfRequest
  | [score] => do
    let _ ← score.float
    .error .endOfRequest
  | [score, member] => do .ok [(← score.float, ← member.bytes)]
  | score :: member :: rest => do
    let pair := (← score.float, ← member.bytes)
    .ok (pair :: (← scoredMembers rest))

/-- Reads leading options, as long as there are any, and the scored members after them. -/
def addOptions (key : Bytes) (absent present changed : Bool) :
    List Frame → Except RequestError SortedSetCommand
  | [] => finish []
  | a :: rest =>
    match a.keyword? addWords with
    | some .nx => addOptions key true present changed rest
    | some .xx => addOptions key absent true changed rest
    | some .ch => addOptions key absent present true rest
    | some .incr => .error .incrNotSupported
    | none => finish (a :: rest)
where
  finish (args : List Frame) : Except RequestError SortedSetCommand :=
    if absent && present then .error .badSyntax
    else do
      let condition :=
        if absent then some .ifAbsent else if present then some .ifPresent else none
      .ok (.zadd key condition changed (← scoredMembers args))

def withScores : Reader Bool := do
  return (← .optional (.keyword [("WITHSCORES", ())])).isSome

def rangeWords : List (String × RangeWord) := [("WITHSCORES", .withScores), ("LIMIT", .limit)]

def rangeOptions (scores : Bool) (limit : Option Limit) :
    List Frame → Except RequestError (Bool × Option Limit)
  | [] => .ok (scores, limit)
  | a :: rest => do
    match ← a.keyword rangeWords with
    | .withScores => rangeOptions true limit rest
    | .limit =>
      match rest with
      | [] => .error .endOfRequest
      | [offset] => do
        let _ ← offset.int64
        .error .endOfRequest
      | offset :: count :: rest => do
        let limit := ⟨← offset.int64, ← count.int64⟩
        rangeOptions scores (some limit) rest
termination_by structural args => args

def rangeByScore : Reader SortedSetCommand := do
  let key ← .bytes
  let min ← .scoreBound
  let max ← .scoreBound
  let (scores, limit) ← .all (rangeOptions false none)
  return .zrangebyscore key min max scores limit

def reader? : String → Option (Reader SortedSetCommand)
  | "zadd" => some do .all (addOptions (← .bytes) false false false)
  | "zcard" => some do return .zcard (← .bytes)
  | "zrange" => some do return .zrange (← .bytes) (← .int64) (← .int64) (← withScores)
  | "zrangebyscore" => some rangeByScore
  | "zrem" => some do return .zrem (← .bytes) (← .remaining)
  | "zremrangebyrank" => some do return .zremrangebyrank (← .bytes) (← .int64) (← .int64)
  | "zremrangebyscore" => some do
    return .zremrangebyscore (← .bytes) (← .scoreBound) (← .scoreBound)
  | "zrevrange" => some do return .zrevrange (← .bytes) (← .int64) (← .int64) (← withScores)
  | "zscore" => some do return .zscore (← .bytes) (← .bytes)
  | _ => none

/-- Gives one member its score if the condition holds; tells whether that counts as a change. -/
def addMember (condition : Option ScoreCondition) (changed : Bool) (z : SortedSet)
    (scored : Binary64 × Bytes) : Bool × SortedSet :=
  let present := (z.score? scored.2).isSome
  match condition, present with
  | some .ifAbsent, true => (false, z)
  | some .ifPresent, false => (false, z)
  | _, _ =>
    match z.insert scored.2 scored.1 with
    | (.added, z) => (true, z)
    | (.updated, z) => (changed, z)
    | (.unchanged, z) => (false, z)

def page (limit : Option Limit) (range : List (Bytes × Binary64)) : List (Bytes × Binary64) :=
  match limit with
  | none => range
  | some ⟨offset, count⟩ =>
    if offset.toInt < 0 then []
    else
      let rest := range.drop offset.toInt.toNat
      if count.toInt < 0 then rest else rest.take count.toInt.toNat

def rangeReply (scores : Bool) (range : List (Bytes × Binary64)) : Frame :=
  .array (range.flatMap fun (member, score) =>
    if scores then [.bulk member, .bulk score.bytes] else [.bulk member])

/-- Replies with the part of a sorted set that `select` picks, of an empty one if there is none. -/
def rangeOf (ks : Keyspace) (key : Bytes) (scores : Bool)
    (select : SortedSet → List (Bytes × Binary64)) : Outcome :=
  answer (fun found => rangeReply scores (found.elim [] select)) (ks.getAs SortedSet key)

def removedBy (ks : Keyspace) (key : Bytes) (remove : SortedSet → Nat × SortedSet) : Outcome :=
  answer (fun removed => .count (removed.getD 0)) (ks.update key remove)

def exec (ks : Keyspace) : SortedSetCommand → Outcome
  | .zadd key condition changed members =>
    answer .count (ks.upsert key fun z => tally (addMember condition changed) z members)
  | .zcard key =>
    answer (fun found => .count (found.elim 0 SortedSet.size)) (ks.getAs SortedSet key)
  | .zrange key start stop scores =>
    rangeOf ks key scores (·.rangeByRank start.toInt stop.toInt false)
  | .zrangebyscore key min max scores limit =>
    rangeOf ks key scores fun z => page limit (z.rangeByScore min max)
  | .zrem key members => removedBy ks key fun z => tally SortedSet.remove z members
  | .zremrangebyrank key start stop =>
    removedBy ks key (·.removeRangeByRank start.toInt stop.toInt)
  | .zremrangebyscore key min max => removedBy ks key (·.removeRangeByScore min max)
  | .zrevrange key start stop scores =>
    rangeOf ks key scores (·.rangeByRank start.toInt stop.toInt true)
  | .zscore key member =>
    answer (fun found => .optionalBulk ((found.bind (·.score? member)).map Binary64.bytes))
      (ks.getAs SortedSet key)

end SortedSetCommand
end RespStore
