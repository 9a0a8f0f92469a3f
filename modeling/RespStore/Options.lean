import RespStore.Frame.Decoder
import RespStore.Number.Decimal
import RespStore.Text.Ascii

/-! The options of the server, from its command line and its environment. -/
namespace RespStore

inductive LogLevel where
  | error
  | warn
  | info
  | debug
  | trace
  deriving DecidableEq, Repr

structure Options where
  bind : String
  port : Nat
  /-- How many commands a transaction may gather. -/
  maxQueued : Nat
  /-- How many bytes may be buffered for a frame. -/
  maxFrameSize : Nat
  logLevel : LogLevel
  deriving DecidableEq, Repr

namespace LogLevel

def name : LogLevel → String
  | .error => "ERROR"
  | .warn => "WARN"
  | .info => "INFO"
  | .debug => "DEBUG"
  | .trace => "TRACE"

def all : List LogLevel := [.error, .warn, .info, .debug, .trace]

/-- A level is written as its name in any case, or as its place, counted from one. -/
def read? (text : String) : Option LogLevel :=
  match Decimal.read (.unsigned 64) (Bytes.ofString text) with
  | .ok n => if n = 0 then none else all[n.toNat - 1]?
  | .error _ => all.find? fun level => Text.spells (Bytes.ofString text) level.name

end LogLevel

/-- Why a command line is not carried out. Asking for help is one reason. -/
inductive UsageError where
  | unknownArgument
  | missingValue
  | invalidValue
  | repeated
  | unneededValue
  | help
  | version
  deriving DecidableEq, Repr

def UsageError.kind : UsageError → String
  | .unknownArgument => "UnknownArgument"
  | .missingValue => "InvalidValue"
  | .invalidValue => "ValueValidation"
  | .repeated => "ArgumentConflict"
  | .unneededValue => "TooManyValues"
  | .help => "DisplayHelp"
  | .version => "DisplayVersion"

inductive Setting where
  | bind
  | port
  | maxQueued
  | maxFrameSize
  | logLevel
  deriving DecidableEq, Repr

namespace Setting

def all : List Setting := [.bind, .port, .maxQueued, .maxFrameSize, .logLevel]

def longName : Setting → String
  | .bind => "bind"
  | .port => "port"
  | .maxQueued => "max-queued-commands"
  | .maxFrameSize => "max-frame-size"
  | .logLevel => "log-level"

def shortName? : Setting → Option Char
  | .bind => some 'b'
  | .port => some 'p'
  | _ => none

/-- The environment variable that is read where the command line says nothing: the name of the
program and the long name, in capitals. -/
def variableName (program : String) (setting : Setting) : String :=
  program ++ "_" ++ setting.longName.map fun c => if c = '-' then '_' else c.toUpper

end Setting

namespace Options

def default : Options where
  bind := "127.0.0.1"
  port := 6379
  maxQueued := 100
  maxFrameSize := Frame.defaultMaxBuffer
  logLevel := .info

private def readNat? (range : IntegerRange) (text : String) : Option Nat :=
  match Decimal.read range (Bytes.ofString text) with
  | .ok n => if n < 0 then none else some n.toNat
  | .error _ => none

/-- Puts a value in place, if it is one for its setting. A port may be written with a sign. -/
def assign? (o : Options) (setting : Setting) (text : String) : Option Options :=
  match setting with
  | .bind => some { o with bind := text }
  | .port => (readNat? .int64 text).bind fun n =>
    if n ≤ 65535 then some { o with port := n } else none
  | .maxQueued => (readNat? (.unsigned 64) text).map fun n => { o with maxQueued := n }
  | .maxFrameSize => (readNat? (.unsigned 64) text).map fun n => { o with maxFrameSize := n }
  | .logLevel => (LogLevel.read? text).map fun level => { o with logLevel := level }

/-- How far a command line has been read: the options so far, what has been set, and a setting whose
value has not been put in place yet, or has not even come. -/
structure Reading where
  options : Options := default
  given : List Setting := []
  pending : Option (Setting × Option String) := none

namespace Reading

def assign (r : Reading) (setting : Setting) (text : String) : Except UsageError Reading :=
  if setting ∈ r.given then .error .repeated
  else
    match r.options.assign? setting text with
    | none => .error .invalidValue
    | some options => .ok { r with options, given := setting :: r.given }

/-- Puts a value that is pending in place. -/
def settle (r : Reading) : Except UsageError Reading :=
  match r.pending with
  | none => .ok r
  | some (_, none) => .error .missingValue
  | some (setting, some text) => { r with pending := none }.assign setting text

/-- A setting with its value, or with the value still to come. -/
def accept (r : Reading) (setting : Setting) (value? : Option String) :
    Except UsageError Reading := do
  let r ← r.settle
  match value? with
  | some text => r.assign setting text
  | none => .ok { r with pending := some (setting, none) }

/-- Asking for help or the version ends the reading, once what came before is in place. -/
def ask (r : Reading) (request : UsageError) : Except UsageError Reading := do
  let _ ← r.settle
  .error request

/-- An argument that is written out, with a value if an equals sign follows. -/
def long (r : Reading) (name : String) (value? : Option String) : Except UsageError Reading :=
  match Setting.all.find? (·.longName == name) with
  | some setting => r.accept setting value?
  | none =>
    if name = "help" ∨ name = "version" then
      if value?.isSome then .error .unneededValue
      else r.ask (if name = "help" then .help else .version)
    else .error .unknownArgument

/-- A letter, and a value if anything follows it. -/
def short (r : Reading) (letter : Char) (rest : List Char) : Except UsageError Reading :=
  match Setting.all.find? (·.shortName? == some letter) with
  | some setting =>
    r.accept setting <|
      match rest with
      | [] => none
      | '=' :: text => some (String.ofList text)
      | text => some (String.ofList text)
  | none =>
    if letter = 'h' then r.ask .help
    else if letter = 'V' then r.ask .version
    else .error .unknownArgument

/-- An argument that is no option has to be the value of the option before it. -/
def plain (r : Reading) (text : String) : Except UsageError Reading :=
  match r.pending with
  | some (setting, none) => .ok { r with pending := some (setting, some text) }
  | _ => .error .unknownArgument

def read (r : Reading) : List String → Except UsageError Reading
  | [] => r.settle
  | arg :: rest =>
    match arg.toList with
    | ['-', '-'] => if rest.isEmpty then r.settle else .error .unknownArgument
    | '-' :: '-' :: text => do
      let name := String.ofList (text.takeWhile (· != '='))
      let value? :=
        match text.dropWhile (· != '=') with
        | [] => none
        | _ :: value => some (String.ofList value)
      read (← r.long name value?) rest
    | '-' :: letter :: text => do read (← r.short letter text) rest
    | _ => do read (← r.plain arg) rest

/-- Reads the variables of the settings that the command line does not give. -/
def readVariables (r : Reading) (env : Setting → Option String) :
    List Setting → Except UsageError Reading
  | [] => .ok r
  | setting :: rest =>
    match env setting with
    | some text =>
      if setting ∈ r.given then readVariables r env rest
      else do readVariables (← r.assign setting text) env rest
    | none => readVariables r env rest

end Reading

/-- Reads the arguments, and the variables of the settings that they do not give. -/
def read (args : List String) (env : Setting → Option String) : Except UsageError Options := do
  let r ← Reading.read {} args
  .ok (← r.readVariables env Setting.all).options

end Options
end RespStore
