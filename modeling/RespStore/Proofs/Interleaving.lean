import RespStore.Proofs.Session

/-! Sessions that share one keyspace, in any order. Each request and each attempt of a session that
waits is one step, and all that the steps do to the keyspace is a history. -/
namespace RespStore

structure Execution where
  command : Command
  reply : Frame

/-- What came of an attempt to pop: nothing, if the session goes on to wait. -/
def Progress.reply : Progress → Frame
  | .finished reply => reply
  | .waiting _ => .nullArray

def Frame.items : Frame → List Frame
  | .array items => items
  | _ => []

namespace Session

def queued (s : Session) : List Command :=
  match s.state with
  | .normal => []
  | .queuing queue _ => queue

def executedNormal (reply : Frame) : Except RequestError Command → List Execution
  | .error _ | .ok (.transaction .multi) => []
  | .ok c => [⟨c, reply⟩]

def executedQueuing (queue : List Command) (aborted : Bool) (reply : Frame) :
    Except RequestError Command → List Execution
  | .ok (.transaction .exec) => if aborted then [] else queue.zipWith Execution.mk reply.items
  | _ => []

/-- The commands that are executed as a session replies to a request, each with its reply. -/
def executed (s : Session) (request reply : Frame) : List Execution :=
  match s.state with
  | .normal => executedNormal reply (Command.ofFrame request)
  | .queuing queue aborted => executedQueuing queue aborted reply (Command.ofFrame request)

end Session

section Logs

variable {α : Type} {P : List α → α → Prop} {Q : α → Prop} {log : List α} {a : α}

/-- Something in a log is such as `P` says, after what was before it, and all that came since is such
as `Q` says. -/
def Since (P : List α → α → Prop) (Q : α → Prop) (log : List α) : Prop :=
  ∃ earlier first later, log = earlier ++ first :: later ∧ P earlier first ∧ ∀ b ∈ later, Q b

theorem not_since_nil : ¬ Since P Q [] := by
  intro ⟨earlier, first, later, hlog, _⟩
  simp at hlog

theorem since_concat : Since P Q (log ++ [a]) ↔ P log a ∨ Since P Q log ∧ Q a := by
  constructor
  · intro ⟨earlier, first, later, hlog, hfirst, hlater⟩
    rcases List.eq_nil_or_concat later with rfl | ⟨init, last, rfl⟩
    · obtain ⟨rfl, hlast⟩ := List.append_inj' hlog rfl
      rw [List.singleton_inj.1 hlast]
      exact .inl hfirst
    · rw [List.concat_eq_append] at hlog hlater
      rw [← List.cons_append, ← List.append_assoc] at hlog
      obtain ⟨hinit, hlast⟩ := List.append_inj' hlog rfl
      rw [List.singleton_inj.1 hlast]
      have hsince : ∀ b ∈ init, Q b := fun b hb => hlater b (List.mem_append_left _ hb)
      have hQ : Q last := hlater last (List.mem_append_right _ List.mem_cons_self)
      exact .inr ⟨⟨earlier, first, init, hinit, hfirst, hsince⟩, hQ⟩
  · rintro (hfirst | ⟨⟨earlier, first, later, rfl, hfirst, hlater⟩, hQ⟩)
    · exact ⟨log, a, [], rfl, hfirst, List.forall_mem_nil Q⟩
    · refine ⟨earlier, first, later ++ [a], by simp, hfirst, fun b hb => ?_⟩
      rcases List.mem_append.1 hb with hb | hb
      · exact hlater b hb
      · rwa [List.mem_singleton.1 hb]

end Logs

/-- An engine, and the sessions that wait by their numbers. -/
structure Server where
  engine : Engine
  waiting : List (Nat × Waiting) := []

namespace Server

/-- What can happen next. A client that waits may also leave. -/
inductive Event where
  | begin (name : String)
  | finish (id : SessionId)
  | submit (id : SessionId) (request : Frame)
  | attempt (id : SessionId)
  | leave (id : SessionId)
  | advance (millis : Nat)

def Event.command? : Event → Option Command
  | .submit _ request => (Command.ofFrame request).toOption
  | _ => none

def keyspace (s : Server) : Keyspace := s.engine.keyspace

def others (s : Server) (id : SessionId) : List (Nat × Waiting) :=
  s.waiting.filter (·.1 ≠ id.number)

def settle (s : Server) (id : SessionId) (progress : Progress) (e : Engine) : Server where
  engine := e
  waiting :=
    match progress with
    | .finished _ => s.others id
    | .waiting w => (id.number, w) :: s.others id

/-- What is executed as an event happens, and the server after it. A session that waits takes no
request, and it attempts again when its time has come or later. -/
def step [Glob.Matcher] (s : Server) : Event → List Execution × Server
  | .begin name => ([], { s with engine := (s.engine.beginSession name).2 })
  | .finish id => ([], { s with engine := s.engine.endSession id })
  | .leave id => ([], { s with waiting := s.others id })
  | .advance millis => ([], { s with engine := s.engine.advance millis })
  | .submit id request =>
    match s.waiting.lookup id.number, s.engine.session? id, s.engine.submit id request with
    | none, some session, .ok (progress, e) =>
      (session.executed request progress.reply, s.settle id progress e)
    | _, _, _ => ([], s)
  | .attempt id =>
    match s.waiting.lookup id.number with
    | none => ([], s)
    | some w =>
      let (progress, e) := s.engine.poll { w with wake := max w.wake s.engine.now }
      ([⟨.lists (.brpop w.keys 0), progress.reply⟩], s.settle id progress e)

def run [Glob.Matcher] (s : Server) : List Event → List Execution × Server
  | [] => ([], s)
  | event :: rest =>
    let (executed, s) := s.step event
    let (later, s) := run s rest
    (executed ++ later, s)

end Server

namespace Keyspace

/-- How a keyspace gets from one state to another, and what is executed on the way: commands, all of
them such as `P` says, between which time passes and counters change. -/
inductive History [Glob.Matcher] (P : Command → Prop) (start : Keyspace) :
    List Execution → Keyspace → Prop
  | nil : History P start [] start
  | exec {log : List Execution} {ks : Keyspace} (h : History P start log ks) {c : Command}
      (hc : P c) (client : Client) :
      History P start (log ++ [⟨c, CommandError.replyTo (c.exec ks client).1⟩])
        (c.exec ks client).2.1
  | tick {log : List Execution} {ks : Keyspace} (h : History P start log ks) {later : Nat}
      (hlater : ks.now ≤ later) : History P start log { ks with now := later }
  | mapStats {log : List Execution} {ks : Keyspace} (h : History P start log ks)
      (f : Stats → Stats) : History P start log (ks.mapStats f)

namespace History

variable {P : Command → Prop} {ks ks' ks'' : Keyspace} {log log' : List Execution}
  [Glob.Matcher]

theorem append (h : History P ks log ks') (h' : History P ks' log' ks'') :
    History P ks (log ++ log') ks'' := by
  induction h' with
  | nil => rwa [List.append_nil]
  | exec _ hc client ih =>
    rw [← List.append_assoc]
    exact ih.exec hc client
  | tick _ hlater ih => exact ih.tick hlater
  | mapStats _ f ih => exact ih.mapStats f

theorem attempt {c : Command} (hc : P c) (ks : Keyspace) (client : Client) :
    History P ks [⟨c, (Session.attempt ks client c).1⟩] (Session.attempt ks client c).2.1 := by
  rw [Session.attempt_eq]
  exact nil.exec hc client

theorem run {c : Command} (hc : P c) (ks : Keyspace) (client : Client) :
    History P ks [⟨c, (Session.run ks client c).1⟩] (Session.run ks client c).2.1 :=
  append (nil.mapStats _) (attempt hc _ client)

theorem runAll {commands : List Command} (hcommands : ∀ c ∈ commands, P c) (ks : Keyspace)
    (client : Client) :
    History P ks (commands.zipWith Execution.mk (Session.runAll ks client commands).1)
      (Session.runAll ks client commands).2.1 := by
  induction commands generalizing ks client with
  | nil => exact nil
  | cons c rest ih =>
    have hrest := ih fun c hc => hcommands c (List.mem_cons_of_mem _ hc)
    exact append (run (hcommands c List.mem_cons_self) ks client) (hrest _ _)

theorem tryPop {keys : List Bytes} {timeout : Nat} (hc : P (.lists (.brpop keys timeout)))
    (ks : Keyspace) : History P ks [⟨.lists (.brpop keys timeout), (Engine.tryPop ks keys).1⟩]
      (Engine.tryPop ks keys).2 := by
  rw [(Session.tryPop_eq_attempt ks { id := 0 } keys timeout).1]
  exact attempt hc ks _

end History
end Keyspace

open Keyspace

theorem Waiting.reply_settle (keys : List Bytes) (deadline : Option Nat) (now : Nat)
    (reply : Frame) : (settle keys deadline now reply).reply = reply := by
  unfold settle
  split
  · next hnull =>
    rw [hnull]
    split <;> rfl
  · rfl

namespace Session

variable {P : Command → Prop} {s s' : Session} {ks ks' : Keyspace} {request reply : Frame}
  [Glob.Matcher]

theorem history_handleNormal (hs : s.state = .normal) {read : Except RequestError Command}
    (hP : ∀ c, read = .ok c → P c) (h : s.handleNormal ks read = (.reply reply, s', ks')) :
    History P ks (executedNormal reply read) ks' ∧ ∀ c ∈ s'.queued, P c := by
  have hnone : ∀ c ∈ s.queued, P c := by
    rw [queued, hs]
    exact List.forall_mem_nil P
  unfold handleNormal at h
  split at h
  · cases h
    exact ⟨.nil, hnone⟩
  · cases h
    exact ⟨.nil, List.forall_mem_nil P⟩
  · cases h
  · next c hmulti _ =>
    cases h
    have hexecuted (reply : Frame) : executedNormal reply (.ok c) = [⟨c, reply⟩] := by
      unfold executedNormal
      split
      · next heq => cases heq
      · next heq => exact absurd (Except.ok.inj heq) hmulti
      · next heq => rw [Except.ok.inj heq]
    rw [hexecuted]
    exact ⟨History.run (hP c rfl) ks s.client, hnone⟩

/-- In a transaction commands are gathered, and only EXEC executes, all that were gathered. -/
theorem history_handleQueuing {queue : List Command} {aborted : Bool}
    (hs : s.state = .queuing queue aborted) (hqueue : ∀ c ∈ queue, P c)
    {read : Except RequestError Command} (hP : ∀ c, read = .ok c → P c)
    (h : s.handleQueuing ks queue aborted read = (reply, s', ks')) :
    History P ks (executedQueuing queue aborted reply read) ks' ∧ ∀ c ∈ s'.queued, P c := by
  unfold handleQueuing at h
  split at h
  · cases h
    exact ⟨.nil, hqueue⟩
  · unfold execute at h
    unfold executedQueuing
    split at h
    · next haborted =>
      cases h
      rw [if_pos haborted]
      exact ⟨.nil, List.forall_mem_nil P⟩
    · next haborted =>
      cases h
      rw [if_neg haborted]
      exact ⟨History.runAll hqueue ks s.client, List.forall_mem_nil P⟩
  · cases h
    exact ⟨.nil, List.forall_mem_nil P⟩
  · cases h
    refine ⟨.nil, ?_⟩
    rwa [queued, hs]
  · next c hexec _ _ =>
    -- A command is gathered or finds no room; in neither case is it executed.
    have hnothing (reply : Frame) : executedQueuing queue aborted reply (.ok c) = [] := by
      unfold executedQueuing
      split
      · next heq => exact absurd (Except.ok.inj heq) hexec
      · rfl
    rw [hnothing]
    split at h
    · cases h
      exact ⟨.nil, List.forall_mem_nil P⟩
    · cases h
      refine ⟨.nil, fun c' hc' => ?_⟩
      rcases List.mem_append.1 hc' with hc' | hc'
      · exact hqueue c' hc'
      · rw [List.mem_singleton.1 hc']
        exact hP c rfl

theorem history_handle (hs : ∀ c ∈ s.queued, P c)
    (hP : ∀ c, Command.ofFrame request = .ok c → P c)
    (h : s.handle ks request = (.reply reply, s', ks')) :
    History P ks (s.executed request reply) ks' ∧ ∀ c ∈ s'.queued, P c := by
  unfold handle at h
  unfold executed
  cases hstate : s.state with
  | normal =>
    rw [hstate] at h
    exact history_handleNormal hstate hP h
  | queuing queue aborted =>
    rw [hstate] at h
    rw [queued, hstate] at hs
    have hhandled : s.handleQueuing ks queue aborted (Command.ofFrame request) =
        (reply, s', ks') := by
      cases h
      rfl
    exact history_handleQueuing hstate hs hP hhandled

/-- Only a command that pops makes a session wait, and it has not been executed then. -/
theorem handle_block {keys : List Bytes} {timeout : Nat}
    (h : s.handle ks request = (.block keys timeout, s', ks')) :
    s.state = .normal ∧ Command.ofFrame request = .ok (.lists (.brpop keys timeout)) ∧ s' = s ∧
      ks' = ks := by
  unfold handle at h
  cases hstate : s.state with
  | normal =>
    rw [hstate] at h
    have hhandled : s.handleNormal ks (Command.ofFrame request) =
        (.block keys timeout, s', ks') := h
    generalize Command.ofFrame request = read at hhandled
    unfold handleNormal at hhandled
    split at hhandled
    · cases hhandled
    · cases hhandled
    · cases hhandled
      exact ⟨rfl, rfl, rfl, rfl⟩
    · cases hhandled
  | queuing queue aborted =>
    rw [hstate] at h
    cases h

end Session

namespace Server

/-- All commands that are still to be executed, for a transaction or for a session that waits, are
such as `P` says. -/
structure Only (P : Command → Prop) (s : Server) : Prop where
  queued : ∀ b ∈ s.engine.sessions, ∀ c ∈ b.2.queued, P c
  waiting : ∀ b ∈ s.waiting, ∀ timeout, P (.lists (.brpop b.2.keys timeout))

variable {P : Command → Prop} {s : Server} {id : SessionId}

theorem mem_of_lookup {β : Type} {l : List (Nat × β)} {n : Nat} {b : β}
    (h : l.lookup n = some b) : (n, b) ∈ l := by
  obtain ⟨before, after, rfl, -⟩ := List.lookup_eq_some_iff.1 h
  exact List.mem_append_right before List.mem_cons_self

theorem queued_setSession {e : Engine} {session : Session}
    (h : ∀ b ∈ e.sessions, ∀ c ∈ b.2.queued, P c) (hsession : ∀ c ∈ session.queued, P c) :
    ∀ b ∈ (e.setSession id session).sessions, ∀ c ∈ b.2.queued, P c := by
  intro b hb
  obtain ⟨old, hold, rfl⟩ := List.mem_map.1 hb
  dsimp only
  split
  · exact hsession
  · exact h old hold

theorem Only.settle {progress : Progress} {e : Engine} (hs : s.Only P)
    (he : ∀ b ∈ e.sessions, ∀ c ∈ b.2.queued, P c)
    (hw : ∀ w, progress = .waiting w → ∀ timeout, P (.lists (.brpop w.keys timeout))) :
    (s.settle id progress e).Only P where
  queued := he
  waiting b hb := by
    have hothers (hb : b ∈ s.others id) := hs.waiting b (List.mem_filter.1 hb).1
    unfold Server.settle at hb
    split at hb
    · exact hothers hb
    · rcases List.mem_cons.1 hb with rfl | hb
      · exact hw _ rfl
      · exact hothers hb

theorem history_submit [Glob.Matcher] {request : Frame} {session : Session} {progress : Progress}
    {e : Engine} (htimeout : ∀ keys t t', P (.lists (.brpop keys t)) → P (.lists (.brpop keys t')))
    (hs : s.Only P) (hP : ∀ c, Command.ofFrame request = .ok c → P c)
    (hsession : s.engine.session? id = some session)
    (h : s.engine.submit id request = .ok (progress, e)) :
    History P s.keyspace (session.executed request progress.reply) e.keyspace ∧
      (s.settle id progress e).Only P := by
  have hqueued : ∀ c ∈ session.queued, P c := hs.queued _ (mem_of_lookup hsession)
  unfold Engine.submit at h
  rw [hsession] at h
  dsimp only at h
  split at h
  · next hhandle =>
    cases h
    obtain ⟨hhistory, hleft⟩ := Session.history_handle hqueued hP hhandle
    exact ⟨hhistory, hs.settle (queued_setSession hs.queued hleft) nofun⟩
  · next keys timeout _ _ hhandle =>
    obtain ⟨hnormal, hread, rfl, rfl⟩ := Session.handle_block hhandle
    cases h
    have hc := hP _ hread
    have hpop := History.tryPop hc (Session.countCommand s.engine.keyspace)
    refine ⟨?_, hs.settle (queued_setSession hs.queued hqueued) fun w hw t => ?_⟩
    · rw [Waiting.reply_settle, Session.executed, hnormal, hread]
      exact .append (.mapStats .nil _) hpop
    · rw [(Waiting.eq_of_settle_waiting hw).1]
      exact htimeout keys timeout t hc

variable [Glob.Matcher]

theorem history_poll (w : Waiting) (hw : ∀ timeout, P (.lists (.brpop w.keys timeout)))
    (e : Engine) : History P e.keyspace [⟨.lists (.brpop w.keys 0), (e.poll w).1.reply⟩]
      (e.poll w).2.keyspace := by
  have hpop := History.tryPop (hw 0) (e.advanceTo w.wake).keyspace
  have hreply : (e.poll w).1.reply = (Engine.tryPop (e.advanceTo w.wake).keyspace w.keys).1 :=
    Waiting.reply_settle _ _ _ _
  rw [hreply]
  exact .append (.tick .nil (Nat.le_max_left _ _)) hpop

/-- What a step does to the keyspace is a history, and no other commands are to come than before. -/
theorem history_step
    (htimeout : ∀ keys t t', P (.lists (.brpop keys t)) → P (.lists (.brpop keys t')))
    (hs : s.Only P) {event : Event} (hevent : ∀ c ∈ event.command?, P c) :
    History P s.keyspace (s.step event).1 (s.step event).2.keyspace ∧ (s.step event).2.Only P := by
  cases event with
  | begin name =>
    refine ⟨History.nil.mapStats fun st => { st with
      connectedClients := st.connectedClients + 1
      connectionsReceived := st.connectionsReceived + 1 }, fun b hb => ?_, hs.waiting⟩
    rcases List.mem_cons.1 hb with rfl | hb
    · exact List.forall_mem_nil P
    · exact hs.queued b hb
  | finish id =>
    show History P s.keyspace [] (s.engine.endSession id).keyspace ∧ Only P ⟨_, s.waiting⟩
    unfold Engine.endSession
    split
    · exact ⟨.nil, hs⟩
    · refine ⟨History.nil.mapStats fun st =>
        { st with connectedClients := st.connectedClients - 1 }, fun b hb => ?_, hs.waiting⟩
      exact hs.queued b (List.mem_filter.1 hb).1
  | leave id =>
    exact ⟨.nil, hs.queued, fun b hb => hs.waiting b (List.mem_filter.1 hb).1⟩
  | advance millis => exact ⟨.tick .nil (Nat.le_add_right _ _), hs.queued, hs.waiting⟩
  | submit id request =>
    have hP (c : Command) (hread : Command.ofFrame request = .ok c) : P c := by
      refine hevent c ?_
      rw [Event.command?, hread]
      rfl
    unfold step
    dsimp only
    split
    · next hsession hsubmit => exact history_submit htimeout hs hP hsession hsubmit
    · exact ⟨.nil, hs⟩
  | attempt id =>
    unfold step
    dsimp only
    split
    · exact ⟨.nil, hs⟩
    · next w hwaits =>
      have hw : ∀ timeout, P (.lists (.brpop w.keys timeout)) :=
        hs.waiting _ (mem_of_lookup hwaits)
      -- An attempt that comes late is made as if it were due only now.
      refine ⟨history_poll { w with wake := max w.wake s.engine.now } hw s.engine,
        hs.settle hs.queued fun w' hw' timeout => ?_⟩
      rw [(Waiting.eq_of_settle_waiting hw').1]
      exact hw timeout

theorem history_run
    (htimeout : ∀ keys t t', P (.lists (.brpop keys t)) → P (.lists (.brpop keys t')))
    {events : List Event} (hs : s.Only P) (hevents : ∀ event ∈ events, ∀ c ∈ event.command?, P c) :
    History P s.keyspace (s.run events).1 (s.run events).2.keyspace := by
  induction events generalizing s with
  | nil => exact .nil
  | cons event rest ih =>
    obtain ⟨hstep, hleft⟩ := history_step htimeout hs (hevents event List.mem_cons_self)
    exact hstep.append (ih hleft fun later hlater => hevents later (List.mem_cons_of_mem _ hlater))

end Server

end RespStore
