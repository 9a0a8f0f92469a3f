import RespStore.Command

/-! Sessions: the requests of one client, one at a time or gathered in transactions. -/
namespace RespStore

inductive SessionState where
  | normal
  /-- Commands are gathered; `aborted` tells whether one could not be read. -/
  | queuing (queue : List Command) (aborted : Bool)
  deriving DecidableEq, Repr

structure Session where
  client : Client
  maxQueued : Nat
  state : SessionState := .normal
  deriving DecidableEq, Repr

/-- What a request comes to: a reply, or the wish to wait for an element under one of some keys. -/
inductive Step where
  | reply (frame : Frame)
  | block (keys : List Bytes) (timeout : Nat)
  deriving DecidableEq, Repr

namespace Session

variable [Glob.Matcher]

def inTransaction (s : Session) : Bool :=
  match s.state with
  | .normal => false
  | .queuing .. => true

/-- Executes a command; a failure is replied too. -/
def attempt (ks : Keyspace) (c : Client) (command : Command) : Frame × Keyspace × Client :=
  match command.exec ks c with
  | (.ok reply, ks, c) => (reply, ks, c)
  | (.error e, ks, c) => (.error e.message, ks, c)

def countCommand (ks : Keyspace) : Keyspace :=
  ks.mapStats fun st => { st with commandsProcessed := st.commandsProcessed + 1 }

/-- Executes a command and counts it. -/
def run (ks : Keyspace) (c : Client) (command : Command) : Frame × Keyspace × Client :=
  attempt (countCommand ks) c command

def runAll (ks : Keyspace) (c : Client) : List Command → List Frame × Keyspace × Client
  | [] => ([], ks, c)
  | command :: rest =>
    let (reply, ks, c) := run ks c command
    let (replies, ks, c) := runAll ks c rest
    (reply :: replies, ks, c)

def handleNormal (s : Session) (ks : Keyspace) :
    Except RequestError Command → Step × Session × Keyspace
  | .error e => (.reply (.error e.message), s, ks)
  | .ok (.transaction .multi) => (.reply .ok, { s with state := .queuing [] false }, ks)
  | .ok (.lists (.brpop keys timeout)) => (.block keys timeout, s, ks)
  | .ok command =>
    let (reply, ks, client) := run ks s.client command
    (.reply reply, { s with client }, ks)

/-- Executes what a transaction has gathered, unless it was aborted. -/
def execute (s : Session) (ks : Keyspace) (queue : List Command) (aborted : Bool) :
    Frame × Session × Keyspace :=
  if aborted then (.error TransactionError.aborted.message, { s with state := .normal }, ks)
  else
    let (replies, ks, client) := runAll ks s.client queue
    (.array replies, { s with state := .normal, client }, ks)

def handleQueuing (s : Session) (ks : Keyspace) (queue : List Command) (aborted : Bool) :
    Except RequestError Command → Frame × Session × Keyspace
  | .error e => (.error e.message, { s with state := .queuing queue true }, ks)
  | .ok (.transaction .exec) => execute s ks queue aborted
  | .ok (.transaction .discard) => (.ok, { s with state := .normal }, ks)
  | .ok (.transaction .multi) => (.error TransactionError.nestedMulti.message, s, ks)
  | .ok command =>
    if s.maxQueued ≤ queue.length then
      (.error (TransactionError.queueFull s.maxQueued).message, { s with state := .normal }, ks)
    else
      (.simple "QUEUED", { s with state := .queuing (queue ++ [command]) aborted }, ks)

def handle (s : Session) (ks : Keyspace) (request : Frame) : Step × Session × Keyspace :=
  match s.state with
  | .normal => handleNormal s ks (Command.ofFrame request)
  | .queuing queue aborted =>
    let (reply, s, ks) := handleQueuing s ks queue aborted (Command.ofFrame request)
    (.reply reply, s, ks)

end Session
end RespStore
