import RespStore.Frame.Serialize
import RespStore.Number.Binary64.Read
import RespStore.Text.Ascii

/-! The parts of a request, and what each can be read as. -/
namespace RespStore

inductive Expected where
  | request
  | commandName
  | string
  | integer
  | float
  deriving DecidableEq, Repr

def Expected.name : Expected → String
  | .request => "array"
  | .commandName => "simple string"
  | .string => "simple or bulk string"
  | .integer => "integer"
  | .float => "float"

inductive RequestError where
  | unexpected (expected : Expected) (actual : Frame)
  | unknownCommand (name : String)
  | wrongArity (command : String)
  | unknownSubcommand (argument command : String)
  | badSyntax
  | notAnInteger
  | notAFloat
  | invalidExpireTime (command : String)
  | invalidClientName
  | notPositive
  | invalidScoreRange
  | incrNotSupported
  | invalidCursor
  | invalidTimeout
  | negativeTimeout
  | invalidBitOffset
  | invalidBit
  | databaseOutOfRange
  | invalidText
  | endOfRequest
  deriving DecidableEq, Repr

def RequestError.message : RequestError → String
  | .unexpected expected actual =>
    "ERR Protocol error: expected " ++ expected.name ++ ", got " ++ actual.display
  | .unknownCommand name => "ERR unknown command '" ++ name ++ "'"
  | .wrongArity command => "ERR wrong number of arguments for '" ++ command ++ "' command"
  | .unknownSubcommand argument command =>
    "ERR unknown subcommand '" ++ argument ++ "' for '" ++ command ++ "'"
  | .badSyntax => "ERR syntax error"
  | .notAnInteger => "ERR value is not an integer or out of range"
  | .notAFloat => "ERR value is not a valid float"
  | .invalidExpireTime command => "ERR invalid expire time in '" ++ command ++ "' command"
  | .invalidClientName =>
    "ERR Client names cannot contain spaces, newlines or special characters."
  | .notPositive => "ERR value is out of range, must be positive"
  | .invalidScoreRange => "ERR min or max is not a float"
  | .incrNotSupported => "ERR INCR option is not supported"
  | .invalidCursor => "ERR invalid cursor"
  | .invalidTimeout => "ERR timeout is not a float or out of range"
  | .negativeTimeout => "ERR timeout is negative"
  | .invalidBitOffset => "ERR bit offset is not an integer or out of range"
  | .invalidBit => "ERR bit is not an integer or out of range"
  | .databaseOutOfRange => "ERR DB index is out of range"
  | .invalidText => "ERR invalid UTF-8 string"
  | .endOfRequest =>
    "ERR attempting to extract a value failed due to the frame being fully consumed"

namespace Frame

def bytes : Frame → Except RequestError Bytes
  | .simple text => .ok (Bytes.ofString text)
  | .bulk data => .ok data
  | frame => .error (.unexpected .string frame)

def text : Frame → Except RequestError String
  | .simple text => .ok text
  | .bulk data =>
    match Bytes.toString? data with
    | some text => .ok text
    | none => .error .invalidText
  | frame => .error (.unexpected .string frame)

def int64 : Frame → Except RequestError Int64
  | .integer value => .ok value
  | .simple text => read text
  | .bulk data =>
    match Bytes.toString? data with
    | some text => read text
    | none => .error .notAnInteger
  | frame => .error (.unexpected .integer frame)
where
  read (text : String) : Except RequestError Int64 :=
    match Decimal.readInt64 (Bytes.ofString text) with
    | .ok n => .ok n
    | .error _ => .error .notAnInteger

def float : Frame → Except RequestError Binary64
  | .integer value => .ok (.ofInt value.toInt)
  | .simple text => read text
  | .bulk data =>
    match Bytes.toString? data with
    | some text => read text
    | none => .error .notAFloat
  | frame => .error (.unexpected .float frame)
where
  read (text : String) : Except RequestError Binary64 :=
    match Binary64.read? (Bytes.ofString text) with
    | some x => .ok x
    | none => .error .notAFloat

/-- What a word stands for, whatever the case of its letters. -/
def wordIn? {α : Type} (words : List (String × α)) (text : String) : Option α :=
  (words.find? fun w => Text.spells (Bytes.ofString text) w.1).map (·.2)

def keyword {α : Type} (words : List (String × α)) (frame : Frame) : Except RequestError α := do
  match wordIn? words (← frame.text) with
  | some meaning => .ok meaning
  | none => .error .badSyntax

def keyword? {α : Type} (words : List (String × α)) : Frame → Option α
  | .simple text => wordIn? words text
  | .bulk data => (Bytes.toString? data).bind (wordIn? words)
  | _ => none

end Frame
end RespStore
