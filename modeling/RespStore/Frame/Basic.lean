import RespStore.Bytes

/-! RESP frames: the requests and replies of the protocol. -/
namespace RespStore

inductive Frame where
  | simple (text : String)
  | error (text : String)
  | integer (value : Int64)
  | bulk (data : Bytes)
  | null
  | nullBulk
  | nullArray
  | array (items : List Frame)
  deriving Repr, Inhabited

namespace Frame

def ok : Frame := .simple "OK"

def bulkArray (items : List Bytes) : Frame := .array (items.map .bulk)

def optionalBulk : Option Bytes → Frame
  | none => .nullBulk
  | some data => .bulk data

/-- Counts are replied as signed 64-bit integers. -/
def count (n : Nat) : Frame := .integer (Int64.ofNat n)

def flag (b : Bool) : Frame := count b.toNat

mutual

private def decEqFrame : (a b : Frame) → Decidable (a = b)
  | .simple s, .simple t => decidable_of_iff (s = t) (by simp)
  | .error s, .error t => decidable_of_iff (s = t) (by simp)
  | .integer m, .integer n => decidable_of_iff (m = n) (by simp)
  | .bulk x, .bulk y => decidable_of_iff (x = y) (by simp)
  | .null, .null => .isTrue rfl
  | .nullBulk, .nullBulk => .isTrue rfl
  | .nullArray, .nullArray => .isTrue rfl
  | .array xs, .array ys =>
    match decEqFrames xs ys with
    | .isTrue h => .isTrue (by rw [h])
    | .isFalse h => .isFalse (by simpa using h)
  | .simple _, .error _ | .simple _, .integer _ | .simple _, .bulk _ | .simple _, .null
  | .simple _, .nullBulk | .simple _, .nullArray | .simple _, .array _
  | .error _, .simple _ | .error _, .integer _ | .error _, .bulk _ | .error _, .null
  | .error _, .nullBulk | .error _, .nullArray | .error _, .array _
  | .integer _, .simple _ | .integer _, .error _ | .integer _, .bulk _ | .integer _, .null
  | .integer _, .nullBulk | .integer _, .nullArray | .integer _, .array _
  | .bulk _, .simple _ | .bulk _, .error _ | .bulk _, .integer _ | .bulk _, .null
  | .bulk _, .nullBulk | .bulk _, .nullArray | .bulk _, .array _
  | .null, .simple _ | .null, .error _ | .null, .integer _ | .null, .bulk _
  | .null, .nullBulk | .null, .nullArray | .null, .array _
  | .nullBulk, .simple _ | .nullBulk, .error _ | .nullBulk, .integer _ | .nullBulk, .bulk _
  | .nullBulk, .null | .nullBulk, .nullArray | .nullBulk, .array _
  | .nullArray, .simple _ | .nullArray, .error _ | .nullArray, .integer _ | .nullArray, .bulk _
  | .nullArray, .null | .nullArray, .nullBulk | .nullArray, .array _
  | .array _, .simple _ | .array _, .error _ | .array _, .integer _ | .array _, .bulk _
  | .array _, .null | .array _, .nullBulk | .array _, .nullArray => .isFalse nofun

private def decEqFrames : (xs ys : List Frame) → Decidable (xs = ys)
  | [], [] => .isTrue rfl
  | [], _ :: _ => .isFalse nofun
  | _ :: _, [] => .isFalse nofun
  | x :: xs, y :: ys =>
    match decEqFrame x y with
    | .isFalse h => .isFalse (by simp [h])
    | .isTrue h =>
      match decEqFrames xs ys with
      | .isFalse h' => .isFalse (by simp [h'])
      | .isTrue h' => .isTrue (by rw [h, h'])

end

instance : DecidableEq Frame := decEqFrame

end Frame
end RespStore
