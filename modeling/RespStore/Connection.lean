import RespStore.Engine
import RespStore.Frame.Decoder
import RespStore.Frame.Serialize

/-! Connections: the bytes that a client sends, and those it gets in reply. -/
namespace RespStore

/-- A connection reads on, has been closed, or waits for a reply that never comes. -/
inductive Connection.Phase where
  | reading
  | closed
  | stuck
  deriving DecidableEq, Repr

structure Connection where
  session : SessionId
  maxBuffer : Nat
  buffer : Bytes := []
  phase : Connection.Phase := .reading

/-- Bytes that come at once, and how many of the requests that they complete are served together,
batch by batch. What is left of the requests is one more batch. -/
structure Delivery where
  chunk : Bytes
  sizes : List Nat := []

namespace Connection

def start (e : Engine) (name : String) (maxBuffer : Nat) : Connection × Engine :=
  let (id, e) := e.beginSession name
  ({ session := id, maxBuffer }, e)

def errorLine (message : String) : Bytes := (Frame.error message).serialize

/-- Cuts a list into pieces of given sizes, and one more of what is left. -/
def pieces {α : Type} : List Nat → List α → List (List α)
  | [], items => [items]
  | n :: sizes, items => items.take n :: pieces sizes (items.drop n)

variable [Glob.Matcher]

/-- Serves requests batch by batch. The replies to a batch are written when all of them are there. -/
def serveBatches (e : Engine) (id : SessionId) :
    List (List Frame) → Bytes × Engine.Ending × Engine
  | [] => ([], .through, e)
  | batch :: rest =>
    let (served, e) := e.servePipeline id batch
    match served.ending with
    | .stuck => ([], .stuck, e)
    | .quit => (Frame.serializeAll served.replies, .quit, e)
    | .through =>
      let (written, ending, e) := serveBatches e id rest
      (Frame.serializeAll served.replies ++ written, ending, e)

/-- Where a connection gets to when the requests that were decoded have been served. After bytes
that are malformed nothing more can be read. -/
def settle (c : Connection) (decoded : Frame.Decoded) :
    Bytes × Engine.Ending × Engine → Bytes × Connection × Engine
  | (written, .stuck, e) => (written, { c with phase := .stuck }, e)
  | (written, .quit, e) => (written, { c with phase := .closed }, e)
  | (written, .through, e) =>
    match decoded.failure with
    | some cause => (written ++ errorLine cause.message, { c with phase := .closed }, e)
    | none => (written, { c with buffer := decoded.left }, e)

def receive (c : Connection) (e : Engine) (d : Delivery) : Bytes × Connection × Engine :=
  match c.phase with
  | .closed | .stuck => ([], c, e)
  | .reading =>
    let decoded := Frame.decode c.maxBuffer (c.buffer ++ d.chunk)
    c.settle decoded (serveBatches e c.session (pieces d.sizes decoded.frames))

def receiveAll (c : Connection) (e : Engine) : List Delivery → Bytes × Connection × Engine
  | [] => ([], c, e)
  | d :: rest =>
    let (written, c, e) := c.receive e d
    let (later, c, e) := receiveAll c e rest
    (written ++ later, c, e)

/-- What is written after the last bytes of a client. -/
def lastWords (c : Connection) : Bytes :=
  if c.phase = .reading ∧ c.buffer ≠ [] then errorLine "bytes remaining on stream" else []

def finish (c : Connection) (e : Engine) : Bytes × Engine :=
  (c.lastWords, e.endSession c.session)

end Connection
end RespStore
