import Mathlib.Algebra.GroupWithZero.Nat
import Mathlib.Data.List.Induction
import RespStore.Proofs.Access.Commands
import RespStore.Proofs.Interleaving.OwnRequests
import RespStore.Proofs.Keyspace

/-! The counters that reports show, over whole runs of sessions that come, go and wait. -/
namespace RespStore

namespace Keyspace

/-- So many more commands are counted, and just as many clients and connections. -/
structure Counted (n : Nat) (ks ks' : Keyspace) : Prop where
  clients : ks'.stats.connectedClients = ks.stats.connectedClients
  connections : ks'.stats.connectionsReceived = ks.stats.connectionsReceived
  commands : ks'.stats.commandsProcessed = ks.stats.commandsProcessed + n

namespace Counted

variable {ks ks' ks'' : Keyspace} {m n : Nat}

theorem refl (ks : Keyspace) : ks.Counted 0 ks := ⟨rfl, rfl, rfl⟩

theorem trans (h : ks.Counted m ks') (h' : ks'.Counted n ks'') : ks.Counted (m + n) ks'' where
  clients := h'.clients.trans h.clients
  connections := h'.connections.trans h.connections
  commands := by rw [h'.commands, h.commands, Nat.add_assoc]

theorem of_accesses {R : Nat → Slot → Slot → Prop} {keys : List Bytes} {α : Type}
    {op : Keyspace → α × Keyspace} (h : Accesses R keys op) (ks : Keyspace) :
    ks.Counted 0 (op ks).2 := by
  obtain ⟨n, hstats⟩ := h.stats ks
  constructor
  · rw [hstats]
  · rw [hstats]
  · rw [hstats, Nat.add_zero]

section
variable [Glob.Matcher]

theorem exec (c : Command) (ks : Keyspace) (client : Client) :
    ks.Counted 0 (c.exec ks client).2.1 := by
  rcases c.changes_or_flushes client with ⟨keys, hop⟩ | hflush
  · exact of_accesses hop ks
  · rw [hflush]
    exact ⟨rfl, rfl, rfl⟩

theorem run (ks : Keyspace) (client : Client) (c : Command) :
    ks.Counted 1 (Session.run ks client c).2.1 := by
  have hcount : ks.Counted 1 (Session.countCommand ks) := ⟨rfl, rfl, rfl⟩
  unfold Session.run
  rw [Session.attempt_eq]
  exact hcount.trans (exec c _ client)

theorem runAll (ks : Keyspace) (client : Client) (commands : List Command) :
    ks.Counted commands.length (Session.runAll ks client commands).2.1 := by
  induction commands generalizing ks client with
  | nil => exact refl ks
  | cons c rest ih =>
    have hrest := (run ks client c).trans (ih _ (Session.run ks client c).2.2)
    rwa [Nat.add_comm] at hrest

end

theorem tryPop (ks : Keyspace) (keys : List Bytes) : ks.Counted 0 (Engine.tryPop ks keys).2 := by
  rw [Engine.snd_tryPop]
  exact of_accesses (ListCommand.popFirst_accesses fun _ h => h) ks

end Counted
end Keyspace

open Keyspace

namespace Handling

/-- A command that is executed as it comes: outside a transaction, and not to open one. -/
def direct (h : Handling) : Bool :=
  !h.before.inTransaction &&
    match Command.ofFrame h.request with
    | .error _ | .ok (.transaction .multi) => false
    | .ok _ => true

def listed (h : Handling) : Nat :=
  match Command.ofFrame h.request with
  | .ok (.transaction .exec) => h.reply.items.length
  | _ => 0

def executions (h : Handling) : Nat := h.direct.toNat + h.listed

end Handling

namespace Session

variable {s s' : Session} {ks ks' : Keyspace} {request reply : Frame}

section
variable [Glob.Matcher]

/-- A command that is executed as it comes counts once. EXEC is one too outside a transaction, and
lists nothing. -/
theorem executions_of_run (ks : Keyspace) (s' : Session) (hs : s.state = .normal) {c : Command}
    (hread : Command.ofFrame request = .ok c) (hmulti : c ≠ .transaction .multi) :
    Handling.executions ⟨request, s, (run ks s.client c).1, s'⟩ = 1 := by
  unfold Handling.executions Handling.direct Handling.listed inTransaction
  rw [hs, hread]
  cases c with
  | transaction tc =>
    cases tc with
    | multi => exact absurd rfl hmulti
    | discard => rfl
    | exec => rfl
  | _ => rfl

theorem counted_handleNormal (hs : s.state = .normal)
    (h : s.handleNormal ks (Command.ofFrame request) = (.reply reply, s', ks')) :
    ks.Counted (Handling.executions ⟨request, s, reply, s'⟩) ks' := by
  generalize hread : Command.ofFrame request = read at h
  unfold handleNormal at h
  split at h
  · cases h
    simp only [Handling.executions, Handling.direct, Handling.listed, hread, Bool.and_false]
    exact .refl ks
  · cases h
    simp only [Handling.executions, Handling.direct, Handling.listed, hread, Bool.and_false]
    exact .refl ks
  · cases h
  · next c hmulti hbrpop =>
    have hone := executions_of_run ks s' hs hread hmulti
    have hrun := Counted.run ks s.client c
    rw [← hone] at hrun
    cases h
    exact hrun

omit [Glob.Matcher] in
theorem executions_of_queuing (htransaction : s.inTransaction = true) :
    Handling.executions ⟨request, s, reply, s'⟩ =
      Handling.listed ⟨request, s, reply, s'⟩ := by
  simp [Handling.executions, Handling.direct, htransaction]

theorem counted_handleQueuing {queue : List Command} {aborted : Bool}
    (hs : s.state = .queuing queue aborted)
    (h : s.handleQueuing ks queue aborted (Command.ofFrame request) = (reply, s', ks')) :
    ks.Counted (Handling.executions ⟨request, s, reply, s'⟩) ks' := by
  have htransaction : s.inTransaction = true := by rw [inTransaction, hs]
  rw [executions_of_queuing htransaction]
  unfold Handling.listed
  dsimp only
  generalize Command.ofFrame request = read at h ⊢
  unfold handleQueuing at h
  split at h
  · cases h
    exact .refl ks
  · unfold execute at h
    split at h
    · cases h
      exact .refl ks
    · cases h
      have hall := Counted.runAll ks s.client queue
      rw [← length_runAll ks s.client queue] at hall
      exact hall
  · cases h
    exact .refl ks
  · cases h
    exact .refl ks
  · next c hexec _ _ =>
    have hnothing : (match (.ok c : Except RequestError Command) with
        | .ok (.transaction .exec) => reply.items.length
        | _ => 0) = 0 := by
      split
      · next heq => exact absurd (Except.ok.inj heq) hexec
      · rfl
    rw [hnothing]
    split at h
    · cases h
      exact .refl ks
    · cases h
      exact .refl ks

theorem counted_handle (h : s.handle ks request = (.reply reply, s', ks')) :
    ks.Counted (Handling.executions ⟨request, s, reply, s'⟩) ks' := by
  unfold handle at h
  cases hstate : s.state with
  | normal =>
    rw [hstate] at h
    exact counted_handleNormal hstate h
  | queuing queue aborted =>
    rw [hstate] at h
    apply counted_handleQueuing hstate
    cases h
    rfl

end

theorem executions_of_block (hs : s.state = .normal) {keys : List Bytes} {timeout : Nat}
    (hread : Command.ofFrame request = .ok (.lists (.brpop keys timeout))) :
    Handling.executions ⟨request, s, reply, s'⟩ = 1 := by
  simp [Handling.executions, Handling.direct, Handling.listed, inTransaction, hs, hread]

end Session

/-! Nothing that a session is asked for changes the number of its client. -/

theorem Command.id_exec [Glob.Matcher] (c : Command) (ks : Keyspace) (client : Client) :
    (c.exec ks client).2.2.id = client.id := by
  cases c with
  | server c => cases c <;> rfl
  | _ => rfl

namespace Session

variable (s : Session) (ks : Keyspace) [Glob.Matcher]

theorem id_run (client : Client) (c : Command) : (run ks client c).2.2.id = client.id := by
  unfold run
  rw [attempt_eq]
  exact c.id_exec _ client

theorem id_runAll (client : Client) (commands : List Command) :
    (runAll ks client commands).2.2.id = client.id := by
  induction commands generalizing ks client with
  | nil => rfl
  | cons c rest ih => exact (ih _ _).trans (id_run ks client c)

theorem id_handleQueuing (queue : List Command) (aborted : Bool)
    (read : Except RequestError Command) :
    (s.handleQueuing ks queue aborted read).2.1.client.id = s.client.id := by
  unfold handleQueuing
  split
  · rfl
  · unfold execute
    split
    · rfl
    · exact id_runAll ks s.client queue
  · rfl
  · rfl
  · split <;> rfl

theorem id_handle (request : Frame) : (s.handle ks request).2.1.client.id = s.client.id := by
  unfold handle
  split
  · unfold handleNormal
    split
    · rfl
    · rfl
    · rfl
    · exact id_run ks s.client _
  · exact s.id_handleQueuing ks _ _ _

end Session

theorem Engine.counted_submit [Glob.Matcher] {e e' : Engine} {id : SessionId} {request : Frame}
    {session after : Session} {progress : Progress} (hsession : e.session? id = some session)
    (h : e.submit id request = .ok (progress, e')) :
    e.keyspace.Counted (Handling.executions ⟨request, session, progress.reply, after⟩)
      e'.keyspace := by
  unfold submit at h
  rw [hsession] at h
  dsimp only at h
  split at h
  · next hhandle =>
    cases h
    have hcounted := Session.counted_handle hhandle
    exact hcounted
  · next hhandle =>
    obtain ⟨hnormal, hread, -, rfl⟩ := Session.handle_block hhandle
    cases h
    -- It is counted before the first attempt, which counts nothing, as no later one does.
    have hcount : e.keyspace.Counted 1 (Session.countCommand e.keyspace) := ⟨rfl, rfl, rfl⟩
    rw [Session.executions_of_block hnormal hread]
    exact hcount.trans (.tryPop _ _)

namespace Engine

theorem length_filter_add_lookup {sessions : List (Nat × Session)} (number : Nat)
    (h : (sessions.map (·.1)).Nodup) :
    (sessions.filter (·.1 ≠ number)).length + (sessions.lookup number).toList.length =
      sessions.length := by
  induction sessions with
  | nil => rfl
  | cons b rest ih =>
    obtain ⟨n, session⟩ := b
    obtain ⟨hn, hrest⟩ := List.nodup_cons.1 h
    by_cases hnumber : n = number
    · subst hnumber
      have hothers : ∀ c ∈ rest, decide (c.1 ≠ n) = true := by
        intro c hc
        rw [decide_eq_true_eq]
        intro heq
        exact hn (List.mem_map.2 ⟨c, hc, heq⟩)
      rw [List.filter_cons_of_neg (by simp), List.filter_eq_self.2 hothers]
      simp
    · have hkept := ih hrest
      have hlookup : ((n, session) :: rest).lookup number = rest.lookup number := by
        rw [List.lookup_cons, beq_false_of_ne (Ne.symm hnumber)]
      rw [List.filter_cons_of_pos (by simpa using hnumber), hlookup, List.length_cons,
        List.length_cons]
      omega

theorem endSession_eq (e : Engine) (id : SessionId) : e.endSession id =
    { e with
      keyspace := e.keyspace.mapStats fun st => { st with
        connectedClients := st.connectedClients - (e.session? id).toList.length }
      sessions := e.sessions.filter (·.1 ≠ id.number) } := by
  unfold endSession
  cases hsession : e.session? id with
  | some session => rfl
  | none =>
    have hothers : ∀ b ∈ e.sessions, decide (b.1 ≠ id.number) = true := by
      intro b hb
      rw [decide_eq_true_eq]
      intro heq
      have hother := List.lookup_eq_none_iff.1 hsession b hb
      simp [heq] at hother
    dsimp only
    rw [List.filter_eq_self.2 hothers]
    rfl

end Engine

namespace Server

variable [Glob.Matcher]

def handling? (s : Server) : Event → Option Handling
  | .submit id request => s.handled? id.number (.submit id request)
  | _ => none

def ending (s : Server) : Event → List (Nat × Session)
  | .finish id => (s.engine.session? id).toList.map (id.number, ·)
  | _ => []

/-- Each session that is there has the number of its client. -/
def Named (s : Server) : Prop := ∀ b ∈ s.engine.sessions, b.2.client.id = b.1

/-- No session comes or goes, and so many commands are counted. -/
structure Serves (n : Nat) (s s' : Server) : Prop where
  begun : s'.engine.begun = s.engine.begun
  numbers : s'.engine.sessions.map (·.1) = s.engine.sessions.map (·.1)
  named : s.Named → s'.Named
  counted : s.keyspace.Counted n s'.keyspace

omit [Glob.Matcher] in
theorem Serves.refl (s : Server) : s.Serves 0 s := ⟨rfl, rfl, id, .refl s.keyspace⟩

theorem serves_submit (s : Server) (id : SessionId) (request : Frame) :
    s.Serves ((s.handling? (.submit id request)).elim 0 Handling.executions)
      (s.step (.submit id request)).2 := by
  dsimp only [handling?]
  rcases s.step_submit_cases id request with
    ⟨hstep, hnone⟩ | ⟨session, progress, e, hsession, hsubmit, hstep, hhandled⟩
  · rw [hstep, hnone]
    exact .refl s
  · obtain ⟨-, hbegun, hsessions, -⟩ := Engine.submit_handled hsession hsubmit
    rw [hstep, hhandled, if_pos rfl]
    have hafter : e.session? id = some (session.handle s.engine.keyspace request).2.1 := by
      have hlookup := s.engine.lookup_setSession id (session.handle s.engine.keyspace request).2.1
      unfold Engine.session? at hsession ⊢
      rw [hsessions, hlookup, if_pos rfl, hsession]
      rfl
    rw [hafter]
    constructor
    · exact hbegun
    · change e.sessions.map (·.1) = _
      rw [hsessions]
      simp [Engine.setSession]
    · intro hnamed b hb
      change b ∈ e.sessions at hb
      rw [hsessions] at hb
      obtain ⟨old, hold, rfl⟩ := List.mem_map.1 hb
      dsimp only
      split
      · next hnumber =>
        rw [Session.id_handle, hnumber]
        exact hnamed _ (mem_of_lookup hsession)
      · exact hnamed old hold
    · exact Engine.counted_submit hsession hsubmit

theorem serves_attempt (s : Server) (id : SessionId) : s.Serves 0 (s.step (.attempt id)).2 := by
  unfold step
  dsimp only
  split
  · exact .refl s
  · next w _ =>
    let later := (s.engine.advanceTo (max w.wake s.engine.now)).keyspace
    have hlater : s.keyspace.Counted 0 later := ⟨rfl, rfl, rfl⟩
    exact ⟨rfl, rfl, fun hnamed => hnamed, hlater.trans (.tryPop later w.keys)⟩

end Server

/-- A server, and the sessions that have ended, for each of which there may be requests yet that
were sent before. -/
structure Service where
  server : Server
  ended : List (Nat × Session) := []

/-- What can happen next: an event at the server, or a session that has ended handles a request that
was sent before. -/
inductive Happening where
  | event (event : Server.Event)
  | late (id : SessionId) (request : Frame)

namespace Happening

def begins : Happening → Bool
  | .event (.begin _) => true
  | _ => false

def Ends (number : Nat) : Happening → Prop
  | .event (.finish id) => id.number = number
  | _ => False

/-- The session that was so many-th to begin has begun, and it has not been asked to end since. -/
def Connected (happenings : List Happening) (number : Nat) : Prop :=
  Since (fun earlier h => h.begins = true ∧ earlier.countP begins + 1 = number)
    (fun h => ¬ h.Ends number) happenings

theorem connected_concat {happenings : List Happening} {h : Happening} {number : Nat} :
    Connected (happenings ++ [h]) number ↔
      (h.begins = true ∧ happenings.countP begins + 1 = number) ∨
        Connected happenings number ∧ ¬ h.Ends number := since_concat

theorem Connected.le {happenings : List Happening} {number : Nat}
    (h : Connected happenings number) : number ≤ happenings.countP begins := by
  obtain ⟨earlier, first, later, rfl, ⟨hbegins, rfl⟩, -⟩ := h
  rw [List.countP_append, List.countP_cons_of_pos hbegins]
  omega

end Happening

namespace Service

/-- The request that is handled as something happens, if one is, and the service after it. A late
request is handled as it would be if the sessions that have ended were all that there are. -/
def step [Glob.Matcher] (s : Service) : Happening → Option Handling × Service
  | .event event =>
    (s.server.handling? event,
      { server := (s.server.step event).2, ended := s.server.ending event ++ s.ended })
  | .late id request =>
    let e := s.server.engine
    let hidden : Server := { s.server with engine := { e with sessions := s.ended } }
    let after := (hidden.step (.submit id request)).2
    (hidden.handling? (.submit id request),
      { server := { after with engine := { after.engine with sessions := e.sessions } }
        ended := after.engine.sessions })

section
variable [Glob.Matcher]

def run (s : Service) : List Happening → List Handling × Service
  | [] => ([], s)
  | h :: rest =>
    let (handled, s) := s.step h
    let (later, s) := run s rest
    (handled.toList ++ later, s)

theorem run_concat (s : Service) (happenings : List Happening) (h : Happening) :
    s.run (happenings ++ [h]) = ((s.run happenings).1 ++ ((s.run happenings).2.step h).1.toList,
      ((s.run happenings).2.step h).2) := by
  induction happenings generalizing s with
  | nil => simp [run]
  | cons first rest ih => simp [run, ih]

end

/-- What is counted is what has happened, and the sessions that are there are those that have begun
and not ended. -/
structure Exact (happenings : List Happening) (log : List Handling) (s : Service) : Prop where
  begun : s.server.engine.begun = happenings.countP Happening.begins
  named : s.server.Named
  numbers : ∀ n, n ∈ s.server.engine.sessions.map (·.1) ↔ Happening.Connected happenings n
  nodup : (s.server.engine.sessions.map (·.1)).Nodup
  clients : s.server.keyspace.stats.connectedClients = s.server.engine.sessions.length
  connections : s.server.keyspace.stats.connectionsReceived = happenings.countP Happening.begins
  commands : s.server.keyspace.stats.commandsProcessed = (log.map Handling.executions).sum

namespace Exact

variable {happenings : List Happening} {log : List Handling} {s s' : Service}

/-- The step for all that lets no session begin or end. -/
theorem serves (hs : s.Exact happenings log) {h : Happening} (handled : Option Handling)
    (hserves : s.server.Serves (handled.elim 0 Handling.executions) s'.server)
    (hbegins : h.begins = false) (hends : ∀ n, ¬ h.Ends n) :
    s'.Exact (happenings ++ [h]) (log ++ handled.toList) := by
  have hcount : (happenings ++ [h]).countP Happening.begins =
      happenings.countP Happening.begins := by
    rw [List.countP_append, List.countP_singleton, hbegins]
    rfl
  have hlength : s'.server.engine.sessions.length = s.server.engine.sessions.length := by
    simpa using congrArg List.length hserves.numbers
  constructor
  · rw [hserves.begun, hs.begun, hcount]
  · exact hserves.named hs.named
  · intro n
    rw [hserves.numbers, hs.numbers, Happening.connected_concat]
    simp [hbegins, hends]
  · rw [hserves.numbers]
    exact hs.nodup
  · rw [hserves.counted.clients, hs.clients, hlength]
  · rw [hserves.counted.connections, hs.connections, hcount]
  · rw [hserves.counted.commands, hs.commands, List.map_append, List.sum_append]
    cases handled <;> simp

variable [Glob.Matcher]

theorem begin (hs : s.Exact happenings log) (name : String) :
    (s.step (.event (.begin name))).2.Exact (happenings ++ [.event (.begin name)]) log := by
  have hcount : (happenings ++ [Happening.event (.begin name)]).countP Happening.begins =
      happenings.countP Happening.begins + 1 := by
    simp [Happening.begins]
  -- All numbers so far are of sessions that have begun.
  have hfresh : s.server.engine.begun + 1 ∉ s.server.engine.sessions.map (·.1) := by
    rw [hs.numbers, hs.begun]
    intro hconnected
    have hle := hconnected.le
    omega
  constructor
  · rw [hcount, ← hs.begun]
    rfl
  · intro b hb
    rcases List.mem_cons.1 hb with rfl | hb
    · rfl
    · exact hs.named b hb
  · intro n
    change n ∈ (s.server.engine.begun + 1) :: s.server.engine.sessions.map (·.1) ↔ _
    rw [List.mem_cons, hs.numbers, Happening.connected_concat, hs.begun]
    simp [Happening.begins, Happening.Ends, eq_comm]
  · exact List.nodup_cons.2 ⟨hfresh, hs.nodup⟩
  · change s.server.keyspace.stats.connectedClients + 1 = s.server.engine.sessions.length + 1
    rw [hs.clients]
  · change s.server.keyspace.stats.connectionsReceived + 1 = _
    rw [hs.connections, hcount]
  · exact hs.commands

theorem finish (hs : s.Exact happenings log) (id : SessionId) :
    (s.step (.event (.finish id))).2.Exact (happenings ++ [.event (.finish id)]) log := by
  have hcount : (happenings ++ [Happening.event (.finish id)]).countP Happening.begins =
      happenings.countP Happening.begins := by
    simp [Happening.begins]
  have hstep : (s.step (.event (.finish id))).2.server.engine = s.server.engine.endSession id := rfl
  have hmap : (s.server.engine.sessions.filter (·.1 ≠ id.number)).map (·.1) =
      (s.server.engine.sessions.map (·.1)).filter (· ≠ id.number) := by
    rw [List.filter_map]
    rfl
  have hlength := Engine.length_filter_add_lookup id.number hs.nodup
  rw [Engine.endSession_eq] at hstep
  constructor
  · rw [hstep, hcount]
    exact hs.begun
  · intro b hb
    rw [hstep] at hb
    exact hs.named b (List.mem_of_mem_filter hb)
  · intro n
    have hends : ¬ (Happening.event (.finish id)).Ends n ↔ n ≠ id.number := by
      rw [Happening.Ends, ne_comm]
    rw [hstep, hmap, List.mem_filter, hs.numbers, Happening.connected_concat, hends]
    simp [Happening.begins]
  · rw [hstep, hmap]
    exact hs.nodup.filter _
  · have hclients : s.server.engine.keyspace.stats.connectedClients = _ := hs.clients
    rw [Server.keyspace, hstep]
    change s.server.engine.keyspace.stats.connectedClients -
      (s.server.engine.sessions.lookup id.number).toList.length =
        (s.server.engine.sessions.filter (·.1 ≠ id.number)).length
    rw [hclients]
    omega
  · rw [Server.keyspace, hstep, hcount]
    exact hs.connections
  · rw [Server.keyspace, hstep]
    exact hs.commands

theorem late (hs : s.Exact happenings log) (id : SessionId) (request : Frame) :
    (s.step (.late id request)).2.Exact (happenings ++ [.late id request])
      (log ++ (s.step (.late id request)).1.toList) := by
  let e := s.server.engine
  let hidden : Server := { s.server with engine := { e with sessions := s.ended } }
  have hserves := hidden.serves_submit id request
  -- What is said of sessions carries over from before: only those that have ended are seen.
  apply hs.serves
  · constructor
    · exact hserves.begun
    · rfl
    · exact fun hnamed => hnamed
    · exact hserves.counted
  · rfl
  · exact fun n hends => hends

theorem event (hs : s.Exact happenings log) (event : Server.Event) :
    (s.step (.event event)).2.Exact (happenings ++ [.event event])
      (log ++ (s.step (.event event)).1.toList) := by
  cases event with
  | begin name =>
    have hbegun := hs.begin name
    rwa [← List.append_nil log] at hbegun
  | finish id =>
    have hended := hs.finish id
    rwa [← List.append_nil log] at hended
  | submit id request =>
    exact hs.serves _ (s.server.serves_submit id request) rfl fun n hends => hends
  | attempt id =>
    have hserves := s.server.serves_attempt id
    exact hs.serves none hserves rfl fun n hends => hends
  | leave id =>
    have hserves : s.server.Serves 0 (s.server.step (.leave id)).2 :=
      ⟨rfl, rfl, fun hnamed => hnamed, .refl _⟩
    exact hs.serves none hserves rfl fun n hends => hends
  | advance millis =>
    have hserves : s.server.Serves 0 (s.server.step (.advance millis)).2 :=
      ⟨rfl, rfl, fun hnamed => hnamed, ⟨rfl, rfl, rfl⟩⟩
    exact hs.serves none hserves rfl fun n hends => hends

/-- By induction on what happens, from the last. -/
theorem run (maxQueued : Nat) (happenings : List Happening) :
    let service : Service := { server := { engine := { maxQueued } } }
    (service.run happenings).2.Exact happenings (service.run happenings).1 := by
  intro service
  induction happenings using List.reverseRecOn with
  | nil =>
    constructor
    · rfl
    · exact nofun
    · intro n
      exact iff_of_false List.not_mem_nil not_since_nil
    · exact List.nodup_nil
    · rfl
    · rfl
    · rfl
  | append_singleton happenings h ih =>
    rw [run_concat]
    cases h with
    | event event => exact ih.event event
    | late id request => exact ih.late id request

end Exact
end Service

theorem Handling.sum_executions (log : List Handling) :
    (log.map executions).sum = log.countP direct + (log.map listed).sum := by
  induction log with
  | nil => rfl
  | cons h rest ih =>
    rw [List.map_cons, List.sum_cons, ih, List.countP_cons, List.map_cons, List.sum_cons,
      executions]
    cases h.direct with
    | true => simp; omega
    | false => simp; omega

namespace Service

/-- After any run the counters that reports show are exact. As many connections are counted as
sessions have begun. The sessions that are there are those that have begun and not been asked to end
since; each has a client of its own, with the number that the session was in the order of beginning;
there are as many as clients are counted, so that none ends for which no client is counted, and the
next to begin has the next number. Commands are counted that were handled as they came, outside
transactions, once each, and as many more as EXEC has listed replies to: those that wait are not
counted again as they try again, and those that were refused, gathered, discarded or aborted are not
counted at all. -/
theorem statistics_are_exact [Glob.Matcher] (maxQueued : Nat) (happenings : List Happening) :
    let service : Service := { server := { engine := { maxQueued } } }
    let log := (service.run happenings).1
    let engine := (service.run happenings).2.server.engine
    let stats := engine.keyspace.stats
    let begun := happenings.countP (·.begins)
    let numbers := engine.sessions.map (·.1)
    stats.connectionsReceived = begun ∧
    (∀ n, n ∈ numbers ↔ Happening.Connected happenings n) ∧ numbers.Nodup ∧
    (∀ n session, (n, session) ∈ engine.sessions → session.client.id = n) ∧
    stats.connectedClients = numbers.length ∧
    (∀ id, (engine.session? id).isSome → 0 < stats.connectedClients) ∧
    (∀ name, (engine.beginSession name).1.number = begun + 1) ∧
    stats.commandsProcessed = log.countP (·.direct) + (log.map (·.listed)).sum := by
  intro service log engine stats begun numbers
  have hexact : (service.run happenings).2.Exact happenings log := Exact.run maxQueued happenings
  have hclients : stats.connectedClients = engine.sessions.length := hexact.clients
  refine ⟨hexact.connections, hexact.numbers, hexact.nodup, ?_, ?_, ?_, ?_, ?_⟩
  · intro n session hsession
    exact hexact.named _ hsession
  · rw [hclients, List.length_map]
  · intro id hid
    obtain ⟨session, hsession⟩ := Option.isSome_iff_exists.1 hid
    rw [hclients]
    exact List.length_pos_of_mem (Server.mem_of_lookup hsession)
  · intro name
    exact congrArg (· + 1) hexact.begun
  · exact hexact.commands.trans (Handling.sum_executions log)

/-- Two sessions. What the second gathers counts as EXEC replays it, though the second of its two
commands fails; the first waits with a request that it was sent before it ended, counts once and is
asked to end once too often; and a session that never began has nothing to end. -/
theorem statistics_of_two_sessions :
    let frame (words : List String) : Frame := .bulkArray (words.map Bytes.ofString)
    let first : SessionId := ⟨1, "first"⟩
    let second : SessionId := ⟨2, "second"⟩
    let ended := SessionId.mk 9 "ninth"
    let service : Service := { server := { engine := { maxQueued := 3 } } }
    let happenings : List Happening :=
      [.event (.begin "first"), .event (.begin "second"),
        .event (.submit second (frame ["MULTI"])),
        .event (.submit second (frame ["SET", "a", "x"])),
        .event (.submit second (frame ["INCR", "a"])), .event (.finish first),
        .late first (frame ["BRPOP", "q", "1"]), .event (.attempt first), .event (.finish first),
        .event (.finish ended), .event (.submit second (frame ["EXEC"]))]
    let engine := (service.run happenings).2.server.engine
    let log := (service.run happenings).1
    engine.keyspace.stats.connectionsReceived = 2 ∧
      Happening.Connected happenings 2 ∧ ¬ Happening.Connected happenings 1 ∧
      (∀ session, (2, session) ∈ engine.sessions → session.client.id = 2) ∧
      (engine.session? second).isSome ∧ 0 < engine.keyspace.stats.connectedClients ∧
      (engine.beginSession "third").1.number = 3 ∧
      log.countP (·.direct) = 1 ∧ (log.map (·.listed)).sum = 2 ∧
      engine.keyspace.stats.commandsProcessed = 3 := by
  intro frame first second ended service happenings engine log
  have hbegun : happenings.countP (·.begins) = 2 := by decide +kernel
  have hnumbers : engine.sessions.map (·.1) = [2] := by decide +kernel
  have hdirect : log.countP (·.direct) = 1 := by decide +kernel
  have hlisted : (log.map (·.listed)).sum = 2 := by decide +kernel
  have hsecond : (engine.session? second).isSome := by decide +kernel
  obtain ⟨hreceived, hconnected, -, hnamed, -, hclients, hnext, hprocessed⟩ :=
    statistics_are_exact 3 happenings
  have htwo : 2 ∈ engine.sessions.map (·.1) := by
    rw [hnumbers]
    exact List.mem_singleton_self 2
  have hone : 1 ∉ engine.sessions.map (·.1) := by
    rw [hnumbers]
    decide
  have hthird := congrArg (· + 1) hbegun
  have hcounted := congrArg₂ (· + ·) hdirect hlisted
  -- No run may be unfolded here.
  with_reducible exact ⟨hreceived.trans hbegun, (hconnected 2).1 htwo,
    fun h => absurd ((hconnected 1).2 h) hone, fun session => hnamed 2 session, hsecond,
    hclients second hsecond, (hnext "third").trans hthird, hdirect, hlisted,
    hprocessed.trans hcounted⟩

end Service
end RespStore
