import RespStore.Engine
import RespStore.Glob.Search

/-! One request beside others that come at given times while it may be waiting. -/
namespace RespStore

/-- A request that comes a number of milliseconds after the start. -/
structure Arrival where
  after : Nat
  session : SessionId
  request : Frame

/-- The request that the others come beside: until when it may wait, what it has come to, and
when. -/
structure Runner where
  session : SessionId
  limit : Nat
  progress : Except EngineError Progress
  since : Nat

/-- What a race comes to. A main request that is dropped has no reply. -/
structure RaceResult where
  reply : Except EngineError (Option Frame)
  elapsed : Nat
  others : List (Except EngineError (Option Frame))

namespace Runner

def isWaiting (r : Runner) : Bool :=
  match r.progress with
  | .ok (.waiting _) => true
  | _ => false

/-- Makes the attempts of the main request that are due up to an instant. -/
def drive (r : Runner) (e : Engine) (instant : Nat) : Runner × Engine :=
  match r.progress with
  | .ok (.waiting w) => go e w
  | _ => (r, e)
where
  go (e : Engine) (w : Waiting) : Runner × Engine :=
    if w.wake ≤ instant then
      match _h : e.poll w with
      | (.finished reply, e) => ({ r with progress := .ok (.finished reply), since := w.wake }, e)
      | (.waiting w, e) => go e w
    else ({ r with progress := .ok (.waiting w) }, e)
  termination_by instant + 1 - w.wake
  decreasing_by
    have := Waiting.now_lt_wake? (Waiting.eq_of_settle_waiting (Prod.mk.inj _h).1).2.2
    omega

def driveToEnd (r : Runner) (e : Engine) : Runner × Engine :=
  let (r, e) := r.drive e r.limit
  if r.isWaiting then ({ r with since := r.limit }, e.advanceTo r.limit) else (r, e)

/-- Polls for another session until it has its reply, beside the main request. -/
def await (r : Runner) (e : Engine) (w : Waiting) : Option Frame × Runner × Engine :=
  if _hw : w.deadline.isSome then
    let (r, e) := r.drive e (min r.limit w.wake)
    match _h : e.poll w with
    | (.finished reply, e) => (some reply, r, e)
    | (.waiting w, e) => await r e w
  else (none, r, e)
termination_by w.timeLeft
decreasing_by exact (Engine.timeLeft_lt_of_poll _hw _h).1

variable [Glob.Matcher]

/-- Serves the others in turn. One that comes for the main request's own session has to wait until
that request is done. -/
def serve (r : Runner) (start : Nat) (e : Engine) :
    List Arrival → List (Except EngineError (Option Frame)) × Runner × Engine
  | [] => ([], r, e)
  | a :: rest =>
    let (r, e) := r.drive e (min r.limit (start + a.after))
    let (r, e) := if r.isWaiting && a.session == r.session then r.driveToEnd e else (r, e)
    let e := e.advanceTo (start + a.after)
    let (reply, r, e) : Except EngineError (Option Frame) × Runner × Engine :=
      match e.submit a.session a.request with
      | .error cause => (.error cause, r, e)
      | .ok (.finished reply, e) => (.ok (some reply), r, e)
      | .ok (.waiting w, e) =>
        let (reply, r, e) := r.await e w
        (.ok reply, r, e)
    let (replies, r, e) := serve r start e rest
    (reply :: replies, r, e)

end Runner

/-- Runs a request for at most `limit` milliseconds while others come. -/
def Engine.race [Glob.Matcher] (e : Engine) (id : SessionId) (request : Frame) (limit : Nat)
    (others : List Arrival) : RaceResult × Engine :=
  let start := e.now
  let (progress, e) : Except EngineError Progress × Engine :=
    match e.submit id request with
    | .error cause => (.error cause, e)
    | .ok (progress, e) => (.ok progress, e)
  let r : Runner := ⟨id, start + limit, progress, start⟩
  let (replies, r, e) := r.serve start e others
  let (r, e) := r.driveToEnd e
  let reply : Except EngineError (Option Frame) :=
    match r.progress with
    | .error cause => .error cause
    | .ok (.finished reply) => .ok (some reply)
    | .ok (.waiting _) => .ok none
  (⟨reply, r.since - start, replies⟩, e)

end RespStore
