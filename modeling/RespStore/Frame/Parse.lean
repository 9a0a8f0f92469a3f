import RespStore.Frame.Basic
import RespStore.Number.Decimal

/-! Reading one frame from the front of a byte string. -/
namespace RespStore.Frame

/-- Why no frame can be read. Only `incomplete` may be mended by more bytes. -/
inductive ParseError where
  | incomplete
  | invalidType (marker : UInt8)
  | unsupportedType (marker : UInt8)
  | invalidText
  | invalidInteger (cause : IntegerError)
  | invalidBulkLength
  | invalidArrayLength
  | lengthMismatch
  deriving DecidableEq, Repr

def ParseError.message : ParseError → String
  | .incomplete => "not enough data is available to parse an entire frame"
  | .invalidType marker => "invalid frame data type: " ++ toString marker.toNat
  | .unsupportedType marker =>
    "unsupported frame data type: '" ++ String.singleton (Char.ofNat marker.toNat) ++ "'"
  | .invalidText => "protocol error; invalid frame format"
  | .invalidInteger cause => cause.message
  | .invalidBulkLength => "protocol error; invalid bulk length"
  | .invalidArrayLength => "protocol error; invalid multibulk length"
  | .lengthMismatch => "protocol error; bulk length mismatch"

/-- The first byte of a frame names its type. -/
inductive Marker where
  | simple
  | error
  | integer
  | bulk
  | bulkError
  | array
  | null
  deriving DecidableEq, Repr

/-- The markers of booleans, doubles, big numbers, verbatim strings, maps, sets and pushes. -/
def unsupportedMarkers : List UInt8 := [35, 44, 40, 61, 37, 126, 62]

def Marker.ofByte (b : UInt8) : Except ParseError Marker :=
  if b = 43 then .ok .simple
  else if b = 45 then .ok .error
  else if b = 58 then .ok .integer
  else if b = 36 then .ok .bulk
  else if b = 33 then .ok .bulkError
  else if b = 42 then .ok .array
  else if b = 95 then .ok .null
  else if b ∈ unsupportedMarkers then .error (.unsupportedType b)
  else .error (.invalidType b)

/-- The bytes before the first CRLF, and those after it. -/
def splitLine? : Bytes → Option (Bytes × Bytes)
  | [] => none
  | [_] => none
  | a :: b :: rest =>
    if a = 13 ∧ b = 10 then some ([], rest)
    else (splitLine? (b :: rest)).map fun (line, after) => (a :: line, after)

def takeLine (b : Bytes) : Except ParseError (Bytes × Bytes) :=
  match splitLine? b with
  | some split => .ok split
  | none => .error .incomplete

/-- The next `n` bytes, which a CRLF has to follow. -/
def takeSized (n : Nat) (b : Bytes) : Except ParseError (Bytes × Bytes) :=
  if b.length < n + 2 then .error .incomplete
  else if (b.drop n).take 2 = Bytes.crlf then .ok (b.take n, b.drop (n + 2))
  else .error .lengthMismatch

def readText (b : Bytes) : Except ParseError String :=
  match Bytes.toString? b with
  | some text => .ok text
  | none => .error .invalidText

def readInteger (b : Bytes) : Except ParseError Int64 := do
  let _ ← readText b
  match Decimal.readInt64 b with
  | .ok n => .ok n
  | .error cause => .error (.invalidInteger cause)

/-- An announced length, or nothing for the length -1 of a null. -/
def readLength (negative : ParseError) (b : Bytes) : Except ParseError (Option Nat) := do
  let n ← readInteger b
  if n.toInt = -1 then .ok none
  else if n.toInt < 0 then .error negative
  else .ok (some n.toInt.toNat)

def parseAll (one : Bytes → Except ParseError (Frame × Bytes)) :
    Nat → Bytes → Except ParseError (List Frame × Bytes)
  | 0, b => .ok ([], b)
  | n + 1, b => do
    let (frame, b) ← one b
    let (frames, b) ← parseAll one n b
    .ok (frame :: frames, b)

/-- Reads the frame that a marker announces; `one` reads the items of an array. -/
def parseBody (one : Bytes → Except ParseError (Frame × Bytes)) (marker : Marker) (b : Bytes) :
    Except ParseError (Frame × Bytes) := do
  let (line, b) ← takeLine b
  match marker with
  | .simple => .ok (.simple (← readText line), b)
  | .error => .ok (.error (← readText line), b)
  | .integer => .ok (.integer (← readInteger line), b)
  | .null => .ok (.null, b)
  | .bulk =>
    match ← readLength .invalidBulkLength line with
    | none => .ok (.nullBulk, b)
    | some n =>
      let (data, b) ← takeSized n b
      .ok (.bulk data, b)
  | .bulkError =>
    match ← readLength .invalidBulkLength line with
    | none => .ok (.null, b)
    | some n =>
      let (data, b) ← takeSized n b
      .ok (.error (← readText data), b)
  | .array =>
    match ← readLength .invalidArrayLength line with
    | none => .ok (.nullArray, b)
    | some n =>
      let (frames, b) ← parseAll one n b
      .ok (.array frames, b)

/-- Reads a frame whose arrays nest less than `depth` deep. -/
def parseWithin : Nat → Bytes → Except ParseError (Frame × Bytes)
  | 0, _ => .error .incomplete
  | _ + 1, [] => .error .incomplete
  | depth + 1, b :: rest => do
    let marker ← Marker.ofByte b
    parseBody (parseWithin depth) marker rest

/-- Reads the frame at the front and gives the bytes after it. Each level of nesting takes bytes of
its own, so the depth allowed is never reached. -/
def parse (b : Bytes) : Except ParseError (Frame × Bytes) := parseWithin b.length b

end RespStore.Frame
