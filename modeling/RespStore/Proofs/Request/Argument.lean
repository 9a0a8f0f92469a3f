import RespStore.Request.Argument
import RespStore.Result

/-! What the parts of a request say, whichever way they are framed. -/
namespace RespStore

/-- A part of a request. How a string was framed makes no difference. -/
inductive Argument where
  | string (data : Bytes)
  | integer (value : Int64)
  | other (frame : Frame)
  deriving DecidableEq, Repr

def Argument.ofFrame : Frame → Argument
  | .simple text => .string (Bytes.ofString text)
  | .bulk data => .string data
  | .integer value => .integer value
  | frame => .other frame

namespace Frame

/-- A simple string as the bulk string of its bytes; any other frame as it is. -/
def asBulk : Frame → Frame
  | .simple text => .bulk (Bytes.ofString text)
  | frame => frame

variable {α : Type} (frame : Frame)

@[simp] theorem bytes_asBulk : frame.asBulk.bytes = frame.bytes := by
  cases frame <;> rfl

@[simp] theorem text_asBulk : frame.asBulk.text = frame.text := by
  cases frame with
  | simple text => simp [asBulk, Frame.text]
  | _ => rfl

@[simp] theorem int64_asBulk : frame.asBulk.int64 = frame.int64 := by
  cases frame with
  | simple text => simp [asBulk, int64]
  | _ => rfl

@[simp] theorem float_asBulk : frame.asBulk.float = frame.float := by
  cases frame with
  | simple text => simp [asBulk, float]
  | _ => rfl

@[simp] theorem keyword_asBulk (words : List (String × α)) :
    frame.asBulk.keyword words = frame.keyword words := by
  unfold keyword
  rw [text_asBulk]

@[simp] theorem keyword?_asBulk (words : List (String × α)) :
    frame.asBulk.keyword? words = frame.keyword? words := by
  cases frame with
  | simple text => simp [asBulk, keyword?]
  | _ => rfl

variable {frame}

theorem bytes_eq_ok_iff {data : Bytes} :
    frame.bytes = .ok data ↔ Argument.ofFrame frame = .string data := by
  cases frame <;> simp [bytes, Argument.ofFrame]

theorem mapM_bytes_eq_ok {frames : List Frame} {items : List Bytes}
    (h : frames.mapM bytes = .ok items) : frames.map Argument.ofFrame = items.map .string := by
  induction frames generalizing items with
  | nil => cases h; rfl
  | cons frame rest ih =>
    rw [List.mapM_cons] at h
    obtain ⟨data, hdata, h⟩ := bind_eq_ok_iff.1 h
    obtain ⟨others, hothers, h⟩ := bind_eq_ok_iff.1 h
    cases h
    rw [List.map_cons, List.map_cons, bytes_eq_ok_iff.1 hdata, ih hothers]

theorem int64_bulk_eq_ok {text : String} {n : Int64}
    (h : Decimal.readInt64 (Bytes.ofString text) = .ok n) :
    (bulk (Bytes.ofString text)).int64 = .ok n := by
  rw [← show asBulk (.simple text) = bulk (Bytes.ofString text) from rfl, int64_asBulk]
  simp only [int64, int64.read, h]

end Frame
end RespStore
