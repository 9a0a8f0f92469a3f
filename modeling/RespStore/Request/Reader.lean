import RespStore.Request.Argument
import RespStore.SortedSet.Bound

/-! Reading the arguments of a request from left to right. -/
namespace RespStore

/-- Takes what it needs off the front of the arguments. -/
abbrev Reader (α : Type) := StateT (List Frame) (Except RequestError) α

namespace Reader

variable {α : Type}

/-- The next argument, as what `as` reads it. -/
def next (as : Frame → Except RequestError α) : Reader α
  | [] => .error .endOfRequest
  | a :: rest => do .ok (← as a, rest)

def bytes : Reader Bytes := next Frame.bytes

def text : Reader String := next Frame.text

def int64 : Reader Int64 := next Frame.int64

def float : Reader Binary64 := next Frame.float

def keyword (words : List (String × α)) : Reader α := next (Frame.keyword words)

def optional (r : Reader α) : Reader (Option α)
  | [] => .ok (none, [])
  | args => do
    let (a, rest) ← r args
    .ok (some a, rest)

def all (read : List Frame → Except RequestError α) : Reader α := fun args => do
  .ok (← read args, [])

def remaining : Reader (List Bytes) := all fun
  | [] => .error .endOfRequest
  | args => args.mapM Frame.bytes

def pairUp : List Bytes → Except RequestError (List (Bytes × Bytes))
  | [] => .ok []
  | [_] => .error .endOfRequest
  | a :: b :: rest => do .ok ((a, b) :: (← pairUp rest))

/-- All arguments left, as at least one pair. -/
def pairs : Reader (List (Bytes × Bytes)) := do pairUp (← remaining)

def maxBits : Nat := Nat.pow 2 32

def bitOffset : Reader Nat := next fun a =>
  match a.int64 with
  | .error .notAnInteger => .error .invalidBitOffset
  | .error e => .error e
  | .ok n =>
    if 0 ≤ n.toInt ∧ n.toInt < maxBits then .ok n.toInt.toNat else .error .invalidBitOffset

def bit : Reader Bool := next fun a =>
  match a.int64 with
  | .error .notAnInteger => .error .invalidBit
  | .error e => .error e
  | .ok n =>
    if n = 0 then .ok false else if n = 1 then .ok true else .error .invalidBit

/-- A positive time to live in milliseconds, from an amount of units of `millis` each. -/
def ttlOf (command : String) (millis : Nat) (amount : Int64) : Except RequestError Nat :=
  let total := amount.toInt * millis
  if 0 < total ∧ total ≤ Int64.maxValue.toInt then .ok total.toNat
  else .error (.invalidExpireTime command)

def ttl (command : String) (millis : Nat) : Reader Nat := do ttlOf command millis (← int64)

def elementCount : Reader Nat := do
  let n ← int64
  if 0 ≤ n.toInt then return n.toInt.toNat else throw .notPositive

def scoreBound : Reader ScoreBound := do
  match ScoreBound.read? (Bytes.ofString (← text)) with
  | some bound => return bound
  | none => throw .invalidScoreRange

/-- Reads a whole request: all its arguments, and none too many. -/
def run (command : String) (r : Reader α) (args : List Frame) : Except RequestError α :=
  match r args with
  | .ok (a, []) => .ok a
  | .ok (_, _ :: _) => .error (.wrongArity command)
  | .error .endOfRequest => .error (.wrongArity command)
  | .error e => .error e

end Reader
end RespStore
