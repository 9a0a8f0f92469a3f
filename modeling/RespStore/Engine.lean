import RespStore.Session

/-! The engine: sessions that share one keyspace. A session that waits for an element polls for it.
-/
namespace RespStore

/-- Sessions are told apart by their numbers; the name is how messages call one. -/
structure SessionId where
  number : Nat
  name : String
  deriving DecidableEq, Repr

inductive EngineError where
  | unknownSession (id : SessionId)
  deriving DecidableEq, Repr

def EngineError.message : EngineError → String
  | .unknownSession id => "ERR unknown session " ++ id.name

structure Engine where
  maxQueued : Nat
  keyspace : Keyspace := {}
  sessions : List (Nat × Session) := []
  /-- How many sessions have begun; the last one has this number. -/
  begun : Nat := 0

/-- A session that waits: for an element under which keys, until when, and when it polls next.
The deadline is in nanoseconds, and there is none if it waits for ever. -/
structure Waiting where
  keys : List Bytes
  deadline : Option Nat
  wake : Nat
  deriving DecidableEq, Repr

inductive Progress where
  | finished (reply : Frame)
  | waiting (w : Waiting)
  deriving DecidableEq, Repr

namespace Waiting

def nanosPerMilli : Nat := 1000000

def pollInterval : Nat := 50 * nanosPerMilli

/-- The instant at which waiting ends. With a timeout of zero, or one too long to be named, there
is none. -/
def deadlineAfter (now timeout : Nat) : Option Nat :=
  let deadline := now * nanosPerMilli + timeout
  if timeout = 0 ∨ horizon * nanosPerMilli ≤ deadline then none else some deadline

/-- When to try again after an attempt at `now` that found nothing, unless the time is up. A wait
ends at a whole millisecond. -/
def wake? (deadline : Option Nat) (now : Nat) : Option Nat :=
  match deadline with
  | none => some (now + pollInterval / nanosPerMilli)
  | some d =>
    if d ≤ now * nanosPerMilli then none
    else
      let wait := min (d - now * nanosPerMilli) pollInterval
      some (now + (wait + nanosPerMilli - 1) / nanosPerMilli)

/-- What an attempt at `now` comes to. -/
def settle (keys : List Bytes) (deadline : Option Nat) (now : Nat) (reply : Frame) : Progress :=
  if reply = .nullArray then
    match wake? deadline now with
    | none => .finished reply
    | some wake => .waiting ⟨keys, deadline, wake⟩
  else .finished reply

theorem now_lt_wake? {deadline : Option Nat} {now wake : Nat}
    (h : wake? deadline now = some wake) : now < wake := by
  unfold wake? at h
  split at h
  · cases h
    simp [pollInterval, nanosPerMilli]
  · split at h
    · cases h
    · cases h
      next hd =>
        simp only [pollInterval, nanosPerMilli] at hd ⊢
        omega

theorem now_lt_deadline {d now wake : Nat} (h : wake? (some d) now = some wake) :
    now * nanosPerMilli < d := by
  unfold wake? at h
  simp only at h
  split at h
  · cases h
  · omega

def timeLeft (w : Waiting) : Nat := w.deadline.getD 0 - w.wake * nanosPerMilli

theorem eq_of_settle_waiting {keys : List Bytes} {deadline : Option Nat} {now : Nat}
    {reply : Frame} {w : Waiting} (h : settle keys deadline now reply = .waiting w) :
    w.keys = keys ∧ w.deadline = deadline ∧ wake? deadline now = some w.wake := by
  unfold settle at h
  split at h
  · split at h
    · cases h
    · next hw =>
      cases h
      exact ⟨rfl, rfl, hw⟩
  · cases h

end Waiting

namespace Engine

def now (e : Engine) : Nat := e.keyspace.now

def mapKeyspace (e : Engine) (f : Keyspace → Keyspace) : Engine :=
  { e with keyspace := f e.keyspace }

def advance (e : Engine) (millis : Nat) : Engine := e.mapKeyspace (·.advance millis)

def advanceTo (e : Engine) (instant : Nat) : Engine :=
  e.mapKeyspace fun ks => { ks with now := max ks.now instant }

def beginSession (e : Engine) (name : String) : SessionId × Engine :=
  let number := e.begun + 1
  let session : Session := { client := { id := number }, maxQueued := e.maxQueued }
  let ks := e.keyspace.mapStats fun st => { st with
    connectedClients := st.connectedClients + 1
    connectionsReceived := st.connectionsReceived + 1 }
  (⟨number, name⟩,
    { e with keyspace := ks, sessions := (number, session) :: e.sessions, begun := number })

def session? (e : Engine) (id : SessionId) : Option Session := e.sessions.lookup id.number

def setSession (e : Engine) (id : SessionId) (s : Session) : Engine :=
  { e with sessions := e.sessions.map fun (number, old) =>
      (number, if number = id.number then s else old) }

/-- Ends a session, if it is there. -/
def endSession (e : Engine) (id : SessionId) : Engine :=
  match e.session? id with
  | none => e
  | some _ =>
    { e with
      keyspace := e.keyspace.mapStats fun st => { st with
        connectedClients := st.connectedClients - 1 }
      sessions := e.sessions.filter (·.1 ≠ id.number) }

def client? (e : Engine) (id : SessionId) : Option Client := (e.session? id).map (·.client)

/-- One attempt to take an element from under some keys; a failure is replied too. -/
def tryPop (ks : Keyspace) (keys : List Bytes) : Frame × Keyspace :=
  match ListCommand.popFirst ks keys with
  | (.ok reply, ks) => (reply, ks)
  | (.error cause, ks) => (.error cause.message, ks)

/-- Hands a request to a session, which replies or begins to wait. Only the first attempt of a
session that waits is counted. -/
def submit [Glob.Matcher] (e : Engine) (id : SessionId) (request : Frame) :
    Except EngineError (Progress × Engine) :=
  match e.session? id with
  | none => .error (.unknownSession id)
  | some s =>
    match s.handle e.keyspace request with
    | (.reply reply, s, ks) => .ok (.finished reply, { e with keyspace := ks }.setSession id s)
    | (.block keys timeout, s, ks) =>
      let (reply, ks) := tryPop (Session.countCommand ks) keys
      .ok (Waiting.settle keys (Waiting.deadlineAfter e.now timeout) e.now reply,
        { e with keyspace := ks }.setSession id s)

/-- Makes the next attempt of a session that waits, at its time. -/
def poll (e : Engine) (w : Waiting) : Progress × Engine :=
  let (reply, ks) := tryPop (e.advanceTo w.wake).keyspace w.keys
  (Waiting.settle w.keys w.deadline w.wake reply, { e with keyspace := ks })

theorem timeLeft_lt_of_poll {e e' : Engine} {w w' : Waiting} (hw : w.deadline.isSome)
    (h : e.poll w = (.waiting w', e')) : w'.timeLeft < w.timeLeft ∧ w'.deadline.isSome := by
  obtain ⟨hs, _⟩ := Prod.mk.inj h
  obtain ⟨_, hdeadline, hwake⟩ := Waiting.eq_of_settle_waiting hs
  obtain ⟨d, hd⟩ := Option.isSome_iff_exists.1 hw
  rw [hd] at hdeadline hwake
  have hlt := Waiting.now_lt_wake? hwake
  have hleft := Waiting.now_lt_deadline hwake
  simp only [Waiting.timeLeft, hdeadline, hd, Option.getD_some, Option.isSome_some, and_true]
  simp only [Waiting.nanosPerMilli] at hleft ⊢
  omega

/-- Polls until there is a reply, while no other session acts. Without a deadline nothing can come,
for the attempt that was made found nothing. -/
def await (e : Engine) (w : Waiting) : Option Frame × Engine :=
  if _hw : w.deadline.isSome then
    match _h : e.poll w with
    | (.finished reply, e) => (some reply, e)
    | (.waiting w, e) => await e w
  else (none, e)
termination_by w.timeLeft
decreasing_by exact (timeLeft_lt_of_poll _hw _h).1

variable [Glob.Matcher]

/-- The reply to a request, if it ever comes, while no other session acts. -/
def executeFrame (e : Engine) (id : SessionId) (request : Frame) :
    Except EngineError (Option Frame × Engine) :=
  match e.submit id request with
  | .error cause => .error cause
  | .ok (.finished reply, e) => .ok (some reply, e)
  | .ok (.waiting w, e) => .ok (e.await w)

def request (name : String) (args : List Bytes) : Frame :=
  .bulkArray (Bytes.ofString name :: args)

def execute (e : Engine) (id : SessionId) (name : String) (args : List Bytes) :
    Except EngineError (Option Frame × Engine) :=
  e.executeFrame id (request name args)

/-- How serving requests ends: there are no more, the client has asked to end its session, or a
reply never comes. -/
inductive Ending where
  | through
  | quit
  | stuck
  deriving DecidableEq, Repr

structure Served where
  replies : List Frame
  ending : Ending

def servePipeline (e : Engine) (id : SessionId) : List Frame → Served × Engine
  | [] => (⟨[], .through⟩, e)
  | frame :: rest =>
    match e.executeFrame id frame with
    | .error cause =>
      let (served, e) := servePipeline e id rest
      ({ served with replies := .error cause.message :: served.replies }, e)
    | .ok (none, e) => (⟨[], .stuck⟩, e)
    | .ok (some reply, e) =>
      if (e.client? id).any (·.quit) then (⟨[reply], .quit⟩, e)
      else
        let (served, e) := servePipeline e id rest
        ({ served with replies := reply :: served.replies }, e)

end Engine
end RespStore
