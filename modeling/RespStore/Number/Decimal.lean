import RespStore.Bytes

/-! Integers as decimal text: an optional sign and digits, read within a range. -/
namespace RespStore

structure IntegerRange where
  lo : Int
  hi : Int

namespace IntegerRange

def signed (bits : Nat) : IntegerRange := ⟨-Nat.pow 2 (bits - 1), Nat.pow 2 (bits - 1) - 1⟩

def unsigned (bits : Nat) : IntegerRange := ⟨0, Nat.pow 2 bits - 1⟩

def int64 : IntegerRange := signed 64

def Contains (r : IntegerRange) (n : Int) : Prop := r.lo ≤ n ∧ n ≤ r.hi

instance (r : IntegerRange) (n : Int) : Decidable (r.Contains n) :=
  inferInstanceAs (Decidable (_ ∧ _))

end IntegerRange

inductive IntegerError where
  | empty
  | invalidDigit
  | tooLarge
  | tooSmall
  deriving DecidableEq, Repr

def IntegerError.message : IntegerError → String
  | .empty => "cannot parse integer from empty string"
  | .invalidDigit => "invalid digit found in string"
  | .tooLarge => "number too large to fit in target type"
  | .tooSmall => "number too small to fit in target type"

namespace Decimal

def isDigit (b : UInt8) : Bool := 48 ≤ b && b ≤ 57

def digit? (b : UInt8) : Option Nat := if isDigit b then some (b.toNat - 48) else none

/-- Reads digits onto `acc`. At each byte the digit is checked before the size. -/
def readDigits (limit : Nat) (beyond : IntegerError) (acc : Nat) :
    Bytes → Except IntegerError Nat
  | [] => .ok acc
  | b :: rest =>
    match digit? b with
    | none => .error .invalidDigit
    | some d =>
      if limit < acc * 10 + d then .error beyond else readDigits limit beyond (acc * 10 + d) rest

def readUnsigned (r : IntegerRange) : Bytes → Except IntegerError Int
  | [] => .error .invalidDigit
  | ds => (readDigits r.hi.toNat .tooLarge 0 ds).map Int.ofNat

def readNegative (r : IntegerRange) : Bytes → Except IntegerError Int
  | [] => .error .invalidDigit
  | ds =>
    if r.lo < 0 then (readDigits r.lo.natAbs .tooSmall 0 ds).map fun n => -Int.ofNat n
    else .error .invalidDigit

/-- Reads an integer with at most one sign; leading zeros are allowed. -/
def read (r : IntegerRange) : Bytes → Except IntegerError Int
  | [] => .error .empty
  | b :: rest =>
    if b = 43 then readUnsigned r rest
    else if b = 45 then readNegative r rest
    else readUnsigned r (b :: rest)

def readInt64 (b : Bytes) : Except IntegerError Int64 := (read .int64 b).map Int64.ofInt

/-- The canonical text: no plus sign and no leading zeros. -/
def bytes (n : Int) : Bytes := Bytes.ofString (toString n)

/-- Reads canonical text only. -/
def readCanonical? (r : IntegerRange) (b : Bytes) : Option Int :=
  match read r b with
  | .ok n => if bytes n = b then some n else none
  | .error _ => none

end Decimal
end RespStore
