import Mathlib.Data.List.Forall2
import RespStore.Glob.Search
import RespStore.Proofs.Interleaving

/-! What a session comes to depends on its own requests alone, and in a transaction so do its
replies but for the list that EXEC gives. -/
namespace RespStore

/-- No command lets what the keyspace holds through to what is known of the client. -/
theorem Command.client_exec [Glob.Matcher] (c : Command) (client : Client) (ks ks' : Keyspace) :
    (c.exec ks client).2.2 = (c.exec ks' client).2.2 := by
  cases c with
  | server c => cases c <;> rfl
  | _ => rfl

namespace Session

variable (s : Session) (ks ks' : Keyspace) [Glob.Matcher]

theorem client_run (client : Client) (c : Command) :
    (run ks client c).2.2 = (run ks' client c).2.2 := by
  unfold run
  rw [attempt_eq, attempt_eq]
  exact c.client_exec client _ _

theorem client_runAll (client : Client) (commands : List Command) :
    (runAll ks client commands).2.2 = (runAll ks' client commands).2.2 := by
  induction commands generalizing ks ks' client with
  | nil => rfl
  | cons c rest ih =>
    have hfirst := client_run ks ks' client c
    have hrest := ih (run ks client c).2.1 (run ks' client c).2.1 (run ks client c).2.2
    change (runAll _ (run ks client c).2.2 rest).2.2 = (runAll _ (run ks' client c).2.2 rest).2.2
    rw [← hfirst]
    exact hrest

theorem handleNormal_session (read : Except RequestError Command) :
    (s.handleNormal ks read).2.1 = (s.handleNormal ks' read).2.1 := by
  unfold handleNormal
  split
  · rfl
  · rfl
  · rfl
  · next c _ _ =>
    exact congrArg (fun client => { s with client }) (client_run ks ks' s.client c)

theorem execute_session (queue : List Command) (aborted : Bool) :
    (s.execute ks queue aborted).2.1 = (s.execute ks' queue aborted).2.1 := by
  unfold execute
  split
  · rfl
  · exact congrArg (fun client => { s with state := .normal, client })
      (client_runAll ks ks' s.client queue)

theorem handleQueuing_session (queue : List Command) (aborted : Bool)
    (read : Except RequestError Command) :
    (s.handleQueuing ks queue aborted read).2.1 =
      (s.handleQueuing ks' queue aborted read).2.1 := by
  unfold handleQueuing
  split
  · rfl
  · exact execute_session s ks ks' queue aborted
  · rfl
  · rfl
  · split <;> rfl

theorem handle_session (request : Frame) :
    (s.handle ks request).2.1 = (s.handle ks' request).2.1 := by
  unfold handle
  split
  · exact handleNormal_session s ks ks' _
  · exact handleQueuing_session s ks ks' _ _ _

end Session

/-- Replies to one request that are the same, unless both are lists that EXEC gives, as long as each
other. -/
def Frame.AlikeTo (request reply reply' : Frame) : Prop :=
  reply = reply' ∨ Command.ofFrame request = .ok (.transaction .exec) ∧
    ∃ replies replies', reply = .array replies ∧ reply' = .array replies' ∧
      replies.length = replies'.length

namespace Session

variable [Glob.Matcher]

theorem handleQueuing_alike (s : Session) (ks ks' : Keyspace) (queue : List Command)
    (aborted : Bool) (request : Frame) :
    request.AlikeTo (s.handleQueuing ks queue aborted (Command.ofFrame request)).1
      (s.handleQueuing ks' queue aborted (Command.ofFrame request)).1 := by
  generalize hread : Command.ofFrame request = read
  unfold handleQueuing
  split
  · exact .inl rfl
  · unfold execute
    split
    · exact .inl rfl
    · have hlength := (length_runAll ks s.client queue).trans
        (length_runAll ks' s.client queue).symm
      exact .inr ⟨hread, _, _, rfl, rfl, hlength⟩
  · exact .inl rfl
  · exact .inl rfl
  · split <;> exact .inl rfl

theorem handle_alike {s : Session} (hs : s.inTransaction = true) {ks ks' : Keyspace}
    {request reply reply' : Frame} (h : (s.handle ks request).1 = .reply reply)
    (h' : (s.handle ks' request).1 = .reply reply') : request.AlikeTo reply reply' := by
  unfold handle at h h'
  unfold inTransaction at hs
  split at hs
  · cases hs
  · next queue aborted hstate =>
    rw [hstate] at h h'
    cases h
    cases h'
    exact handleQueuing_alike s ks ks' queue aborted request

end Session

/-- A request that a session has handled: the session before and after, and the reply. -/
structure Handling where
  request : Frame
  before : Session
  reply : Frame
  after : Session

namespace Handling

/-- Two handlings that nobody can tell apart by what the session is, and in a transaction by the
reply either, unless it is the list that EXEC gives. -/
structure Alike (h h' : Handling) : Prop where
  before : h.before = h'.before
  after : h.after = h'.after
  reply : h.before.inTransaction = true → h.request.AlikeTo h.reply h'.reply

/-- What a session does with a request over some keyspace. -/
structure From [Glob.Matcher] (s : Session) (h : Handling) : Prop where
  before : h.before = s
  handled : ∃ ks, (s.handle ks h.request).2.1 = h.after ∧
    (s.inTransaction = true → (s.handle ks h.request).1 = .reply h.reply)

section
variable [Glob.Matcher]

def Along : Session → List Handling → Prop
  | _, [] => True
  | s, h :: rest => h.From s ∧ Along h.after rest

def last (s : Session) (handlings : List Handling) : Session :=
  handlings.foldl (fun _ h => h.after) s

theorem From.alike {s : Session} {h h' : Handling} (hs : h.From s) (hs' : h'.From s)
    (hsame : h.request = h'.request) : h.Alike h' := by
  obtain ⟨rfl, ks, hafter, hreply⟩ := hs
  obtain ⟨hbefore, ks', hafter', hreply'⟩ := hs'
  rw [← hsame] at hafter' hreply'
  refine ⟨hbefore.symm, ?_, fun htransaction => ?_⟩
  · rw [← hafter, ← hafter']
    exact h.before.handle_session ks ks' h.request
  · exact Session.handle_alike htransaction (hreply htransaction) (hreply' htransaction)

end

/-- By induction on the requests: each is handled by the same session, and leaves the same. -/
theorem Along.alike [Glob.Matcher] {s : Session} {handlings handlings' : List Handling}
    (h : Along s handlings) (h' : Along s handlings')
    (hsame : handlings.map (·.request) = handlings'.map (·.request)) :
    List.Forall₂ Alike handlings handlings' ∧ last s handlings = last s handlings' := by
  induction handlings generalizing s handlings' with
  | nil =>
    obtain rfl := List.map_eq_nil_iff.1 hsame.symm
    exact ⟨.nil, rfl⟩
  | cons first rest ih =>
    cases handlings' with
    | nil => cases hsame
    | cons first' rest' =>
      rw [List.map_cons, List.map_cons, List.cons.injEq] at hsame
      have hfirst : first.Alike first' := h.1.alike h'.1 hsame.1
      have hlater : Along first.after rest' := by
        rw [hfirst.after]
        exact h'.2
      obtain ⟨hrest, hlast⟩ := ih h.2 hlater hsame.2
      refine ⟨.cons hfirst hrest, ?_⟩
      change last first.after rest = last first'.after rest'
      rw [← hfirst.after]
      exact hlast

end Handling

def Session.initial (number maxQueued : Nat) : Session where
  client := { id := number }
  maxQueued := maxQueued

namespace Engine

variable {e : Engine} {id : SessionId}

theorem lookup_setSession (e : Engine) (id : SessionId) (s : Session) (number : Nat) :
    (e.setSession id s).sessions.lookup number =
      if number = id.number then (e.sessions.lookup number).map fun _ => s
      else e.sessions.lookup number := by
  unfold setSession
  generalize e.sessions = sessions
  induction sessions with
  | nil => simp
  | cons b rest ih =>
    obtain ⟨n, old⟩ := b
    rw [List.map_cons, List.lookup_cons, List.lookup_cons, ih]
    by_cases hn : number = n
    · subst hn
      simp only [beq_self_eq_true]
      split <;> rfl
    · rw [beq_false_of_ne hn]

theorem lookup_filter_ne {β : Type} (l : List (Nat × β)) (ended number : Nat) :
    (l.filter (·.1 ≠ ended)).lookup number =
      if number = ended then none else l.lookup number := by
  induction l with
  | nil => simp
  | cons b rest ih =>
    obtain ⟨n, value⟩ := b
    by_cases hn : n = ended
    · subst hn
      rw [List.filter_cons_of_neg (by simp), ih, List.lookup_cons]
      split
      · rfl
      · next hne => rw [beq_false_of_ne hne]
    · rw [List.filter_cons_of_pos (by simpa using hn), List.lookup_cons, List.lookup_cons, ih]
      by_cases hnumber : number = n
      · subst hnumber
        simp only [beq_self_eq_true, if_neg hn]
      · rw [beq_false_of_ne hnumber]

theorem submit_handled [Glob.Matcher] {e' : Engine} {request : Frame} {session : Session}
    {progress : Progress} (hsession : e.session? id = some session)
    (h : e.submit id request = .ok (progress, e')) :
    e'.maxQueued = e.maxQueued ∧ e'.begun = e.begun ∧
      e'.sessions = (e.setSession id (session.handle e.keyspace request).2.1).sessions ∧
      (session.inTransaction = true →
        (session.handle e.keyspace request).1 = .reply progress.reply) := by
  unfold submit at h
  rw [hsession] at h
  dsimp only at h
  split at h
  · next hhandle =>
    cases h
    rw [hhandle]
    exact ⟨rfl, rfl, rfl, fun _ => rfl⟩
  · next hhandle =>
    obtain ⟨hnormal, -, rfl, -⟩ := Session.handle_block hhandle
    cases h
    rw [hhandle]
    refine ⟨rfl, rfl, rfl, fun htransaction => ?_⟩
    rw [Session.inTransaction, hnormal] at htransaction
    cases htransaction

end Engine

namespace Server

section
variable [Glob.Matcher]

def handled? (s : Server) (number : Nat) : Event → Option Handling
  | .submit id request =>
    if id.number = number then
      match s.waiting.lookup id.number, s.engine.session? id, s.engine.submit id request with
      | none, some before, .ok (progress, e) =>
        (e.session? id).map fun after => ⟨request, before, progress.reply, after⟩
      | _, _, _ => none
    else none
  | _ => none

def handlings (s : Server) (number : Nat) : List Event → List Handling
  | [] => []
  | event :: rest => (s.handled? number event).toList ++ handlings (s.step event).2 number rest

/-- A session that is there, or is still to begin, is the given one. -/
structure Has (number : Nat) (session : Session) (s : Server) : Prop where
  begun : ∀ b ∈ s.engine.sessions, b.1 ≤ s.engine.begun
  found : ∀ found ∈ s.engine.sessions.lookup number, found = session
  fresh : s.engine.begun < number → session = .initial number s.engine.maxQueued

variable {number : Nat} {current : Session} {s : Server}

omit [Glob.Matcher] in
theorem Has.of_sessions_eq {s' : Server} (h : s.Has number current)
    (hmax : s'.engine.maxQueued = s.engine.maxQueued) (hbegun : s'.engine.begun = s.engine.begun)
    (hsessions : s'.engine.sessions = s.engine.sessions) : s'.Has number current where
  begun := by
    rw [hsessions, hbegun]
    exact h.begun
  found := by
    rw [hsessions]
    exact h.found
  fresh := by
    rw [hbegun, hmax]
    exact h.fresh

theorem Has.begin (h : s.Has number current) (name : String) :
    (s.step (.begin name)).2.Has number current where
  begun b hb := by
    change b.1 ≤ s.engine.begun + 1
    rcases List.mem_cons.1 hb with rfl | hb
    · exact Nat.le_refl _
    · exact Nat.le_succ_of_le (h.begun b hb)
  found found hfound := by
    change List.lookup number ((s.engine.begun + 1, _) :: s.engine.sessions) = some found at hfound
    rw [List.lookup_cons] at hfound
    by_cases hnumber : number = s.engine.begun + 1
    · have hcurrent := h.fresh (by omega)
      rw [hnumber, beq_self_eq_true] at hfound
      cases hfound
      rw [hcurrent, hnumber]
      rfl
    · rw [beq_false_of_ne hnumber] at hfound
      exact h.found found hfound
  fresh hbegun := by
    change s.engine.begun + 1 < number at hbegun
    exact h.fresh (by omega)

theorem Has.finish (h : s.Has number current) (id : SessionId) :
    (s.step (.finish id)).2.Has number current := by
  change Has number current { s with engine := s.engine.endSession id }
  unfold Engine.endSession
  split
  · exact h
  · refine ⟨fun b hb => h.begun b (List.mem_filter.1 hb).1, fun found hfound => ?_, h.fresh⟩
    have hlookup : (s.engine.sessions.filter (·.1 ≠ id.number)).lookup number = some found := hfound
    rw [Engine.lookup_filter_ne] at hlookup
    split at hlookup
    · cases hlookup
    · exact h.found found hlookup

theorem step_submit_cases (s : Server) (id : SessionId) (request : Frame) :
    (s.step (.submit id request)).2 = s ∧
        (∀ number, s.handled? number (.submit id request) = none) ∨
      ∃ session progress e, s.engine.session? id = some session ∧
        s.engine.submit id request = .ok (progress, e) ∧
        (s.step (.submit id request)).2 = s.settle id progress e ∧
        ∀ number, s.handled? number (.submit id request) =
          if id.number = number then
            (e.session? id).map fun after => ⟨request, session, progress.reply, after⟩
          else none := by
  unfold step handled?
  dsimp only
  cases s.waiting.lookup id.number with
  | some w => exact .inl ⟨rfl, fun number => ite_self none⟩
  | none =>
    cases s.engine.session? id with
    | none => exact .inl ⟨rfl, fun number => ite_self none⟩
    | some session =>
      cases s.engine.submit id request with
      | error cause => exact .inl ⟨rfl, fun number => ite_self none⟩
      | ok taken => exact .inr ⟨session, taken.1, taken.2, rfl, rfl, rfl, fun number => rfl⟩

/-- What an event is to a session: a request that it handles, or nothing. -/
def Regards (s : Server) (number : Nat) (current : Session) (event : Event) : Prop :=
  match s.handled? number event with
  | none => (s.step event).2.Has number current
  | some h => h.From current ∧ (s.step event).2.Has number h.after

theorem Has.submit (h : s.Has number current) (id : SessionId) (request : Frame) :
    s.Regards number current (.submit id request) := by
  unfold Regards
  rcases s.step_submit_cases id request with
    ⟨hstep, hnone⟩ | ⟨session, progress, e, hsession, hsubmit, hstep, hhandled⟩
  · rw [hstep, hnone]
    exact h
  rw [hstep, hhandled]
  obtain ⟨hmax, hbegun, hsessions, hreply⟩ := Engine.submit_handled hsession hsubmit
  have hmem : ∀ b ∈ e.sessions, b.1 ≤ e.begun := by
    intro b hb
    rw [hsessions] at hb
    obtain ⟨old, hold, rfl⟩ := List.mem_map.1 hb
    rw [hbegun]
    exact h.begun old hold
  have hlookup := s.engine.lookup_setSession id (session.handle s.engine.keyspace request).2.1
  by_cases hnumber : id.number = number
  · subst hnumber
    have hafter : e.session? id = some (session.handle s.engine.keyspace request).2.1 := by
      unfold Engine.session? at hsession ⊢
      rw [hsessions, hlookup, if_pos rfl, hsession]
      rfl
    have hcurrent : session = current := h.found session hsession
    have hold : id.number ≤ s.engine.begun := h.begun _ (mem_of_lookup hsession)
    rw [if_pos rfl, hafter]
    refine ⟨⟨hcurrent, s.engine.keyspace, by rw [hcurrent], ?_⟩, ⟨hmem, fun found hfound => ?_, ?_⟩⟩
    · rw [← hcurrent]
      exact hreply
    · exact Option.some.inj (hfound.symm.trans hafter)
    · intro hfresh
      change e.begun < id.number at hfresh
      omega
  · rw [if_neg hnumber]
    refine ⟨hmem, fun found hfound => ?_, fun hfresh => ?_⟩
    · change e.sessions.lookup number = some found at hfound
      rw [hsessions, hlookup, if_neg (Ne.symm hnumber)] at hfound
      exact h.found found hfound
    · change e.begun < number at hfresh
      rw [hbegun] at hfresh
      rw [h.fresh hfresh, ← hmax]
      rfl

theorem Has.attempt (h : s.Has number current) (id : SessionId) :
    (s.step (.attempt id)).2.Has number current := by
  unfold step
  dsimp only
  split
  · exact h
  · exact h.of_sessions_eq rfl rfl rfl

theorem Has.step (h : s.Has number current) (event : Event) : s.Regards number current event := by
  cases event with
  | begin name => exact h.begin name
  | finish id => exact h.finish id
  | submit id request => exact h.submit id request
  | attempt id => exact h.attempt id
  | leave id => exact h.of_sessions_eq rfl rfl rfl
  | advance millis => exact h.of_sessions_eq rfl rfl rfl

/-- By induction on the events: only its own requests change what a session is. -/
theorem Has.run (h : s.Has number current) (events : List Event) :
    Handling.Along current (s.handlings number events) ∧
      (s.run events).2.Has number (Handling.last current (s.handlings number events)) := by
  induction events generalizing s current with
  | nil => exact ⟨trivial, h⟩
  | cons event rest ih =>
    have hstep := h.step event
    unfold Regards at hstep
    unfold handlings
    generalize s.handled? number event = handled at hstep ⊢
    cases handled with
    | none => exact ih hstep
    | some first =>
      obtain ⟨hrest, hlast⟩ := ih hstep.2
      exact ⟨⟨hstep.1, hrest⟩, hlast⟩

omit [Glob.Matcher] in
theorem has_initial (number maxQueued : Nat) (ks : Keyspace) :
    Has number (.initial number maxQueued) { engine := { maxQueued, keyspace := ks } } where
  begun := nofun
  found := nofun
  fresh _ := rfl

/-- Of two runs, over any keyspaces, at any time and among any other sessions, in which a session
handles the same requests: each request leaves the session the same in both, and what is replied in
a transaction is the same, but for the replies in the list that EXEC gives. -/
theorem session_determined_by_own_requests (maxQueued number : Nat) (ks ks' : Keyspace)
    (events events' : List Event) :
    let s : Server := { engine := { maxQueued, keyspace := ks } }
    let s' : Server := { engine := { maxQueued, keyspace := ks' } }
    (s.handlings number events).map (·.request) = (s'.handlings number events').map (·.request) →
      List.Forall₂ Handling.Alike (s.handlings number events) (s'.handlings number events') ∧
        ∀ session ∈ (s.run events).2.engine.sessions.lookup number,
          ∀ session' ∈ (s'.run events').2.engine.sessions.lookup number, session = session' := by
  intro s s' hsame
  obtain ⟨halong, hhas⟩ := (has_initial number maxQueued ks).run events
  obtain ⟨halong', hhas'⟩ := (has_initial number maxQueued ks').run events'
  obtain ⟨halike, hlast⟩ := halong.alike halong' hsame
  refine ⟨halike, fun session hsession session' hsession' => ?_⟩
  calc session
    _ = Handling.last _ (s.handlings number events) := hhas.found session hsession
    _ = Handling.last _ (s'.handlings number events') := hlast
    _ = session' := (hhas'.found session' hsession').symm

end

/-- A transaction that reads a key is the same to its session where another session binds the key in
the middle of it and where the key has expired, though the lists that EXEC gives are not. -/
theorem transaction_same_among_others :
    let frame (words : List String) : Frame := .bulkArray (words.map Bytes.ofString)
    let first : SessionId := ⟨1, "first"⟩
    let second : SessionId := ⟨2, "second"⟩
    let ks : Keyspace := { entries := Table.empty.insert [97] ⟨.list [[120]], some 5⟩ }
    let s : Server := { engine := { maxQueued := 3 } }
    let s' : Server := { engine := { maxQueued := 3, keyspace := ks } }
    let events : List Event :=
      [.begin "first", .begin "second", .submit first (frame ["MULTI"]),
        .submit second (frame ["SET", "a", "x"]), .submit first (frame ["GET", "a"]),
        .submit first (frame ["EXEC"])]
    let events' : List Event :=
      [.begin "first", .submit first (frame ["MULTI"]), .advance 7,
        .submit first (frame ["GET", "a"]), .submit first (frame ["EXEC"])]
    (s.handlings 1 events).map (·.request) = (s'.handlings 1 events').map (·.request) ∧
      List.Forall₂ Handling.Alike (s.handlings 1 events) (s'.handlings 1 events') ∧
      (s.handlings 1 events).map (·.reply) ≠ (s'.handlings 1 events').map (·.reply) := by
  intro frame first second ks s s' events events'
  have hsame : (s.handlings 1 events).map (·.request) =
      (s'.handlings 1 events').map (·.request) := by decide +kernel
  have hreplies : (s.handlings 1 events).map (·.reply) ≠
      (s'.handlings 1 events').map (·.reply) := by decide +kernel
  exact ⟨hsame, (session_determined_by_own_requests 3 1 {} ks events events' hsame).1, hreplies⟩

end Server
end RespStore
