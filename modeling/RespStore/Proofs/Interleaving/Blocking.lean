import Mathlib.Algebra.Order.Floor.Div
import RespStore.Proofs.Interleaving.OwnRequests
import RespStore.Proofs.Interleaving.Pipeline

/-! How long a session waits that asks to: it attempts to pop whenever it is due to, until an
attempt finds something or the time is up. -/
namespace RespStore
open Waiting

theorem Engine.commandsProcessed_tryPop (ks : Keyspace) (keys : List Bytes) :
    (tryPop ks keys).2.stats.commandsProcessed = ks.stats.commandsProcessed := by
  obtain ⟨n, hstats⟩ := (ListCommand.popFirst_accesses fun _ h => h).stats ks
  rw [snd_tryPop, hstats]

namespace Waiting

variable {deadline now wake : Nat}

theorem wake?_eq_none_iff : wake? (some deadline) now = none ↔ deadline ≤ now * nanosPerMilli := by
  unfold wake?
  dsimp only
  split
  · next hpast => exact iff_of_true rfl hpast
  · next hahead => exact iff_of_false nofun hahead

theorem wake_cases (h : wake? (some deadline) now = some wake) :
    wake * nanosPerMilli = now * nanosPerMilli + pollInterval ∧ wake * nanosPerMilli ≤ deadline ∨
      wake = deadline ⌈/⌉ nanosPerMilli ∧ deadline ≤ wake * nanosPerMilli := by
  unfold wake? at h
  dsimp only at h
  split at h
  · cases h
  · next hahead =>
    have hwake := (Option.some.inj h).symm
    simp only [Nat.ceilDiv_eq_add_pred_div, pollInterval, nanosPerMilli] at hahead hwake ⊢
    omega

end Waiting

/-- An attempt of a session to pop: when it is due, what keyspace it is made on, and what comes of
it. -/
structure Attempt where
  due : Nat
  keyspace : Keyspace
  progress : Progress

namespace Attempt

def made (a : Attempt) : Nat := a.keyspace.now

def found (a : Attempt) (keys : List Bytes) : Frame := (Engine.tryPop a.keyspace keys).1

/-- There is nothing to pop, and time is left. -/
def InVain (keys : List Bytes) (deadline : Nat) (a : Attempt) : Prop :=
  a.found keys = .nullArray ∧ a.made * nanosPerMilli < deadline

/-- Attempts of one session, the first of which is due at a given time, and what the session waits
for after them. It attempts again only after an attempt in vain, and replies with any other. -/
inductive Polls (keys : List Bytes) (deadline : Nat) : Nat → List Attempt → Option Waiting → Prop
  | waits (due : Nat) : Polls keys deadline due [] (some ⟨keys, some deadline, due⟩)
  | again {a : Attempt} {next : Nat} {later : List Attempt} {left : Option Waiting}
      (hmade : a.due ≤ a.made) (hvain : a.InVain keys deadline)
      (hnext : wake? (some deadline) a.made = some next)
      (hlater : Polls keys deadline next later left) : Polls keys deadline a.due (a :: later) left
  | replies {a : Attempt} (hmade : a.due ≤ a.made) (hend : ¬ a.InVain keys deadline)
      (hreply : a.progress = .finished (a.found keys)) : Polls keys deadline a.due [a] none

namespace Polls

variable {keys : List Bytes} {deadline due : Nat} {a : Attempt} {log later : List Attempt}
  {left : Option Waiting}

/-- Each attempt after the first takes an interval off the time that is left, and at most one is due
when less than that is left. -/
theorem length_mul_lt (h : Polls keys deadline due log left) :
    (log.length + left.toList.length) * pollInterval <
      deadline - due * nanosPerMilli + 2 * pollInterval := by
  induction h with
  | waits due =>
    have hpos : 0 < pollInterval := by decide
    simp only [List.length_nil, Option.toList_some, List.length_singleton]
    omega
  | @again a next later left hmade hvain hnext hlater ih =>
    have hahead := hvain.2
    have hdue : a.due * nanosPerMilli ≤ a.made * nanosPerMilli := Nat.mul_le_mul_right _ hmade
    have hone : ((a :: later).length + left.toList.length) * pollInterval =
        (later.length + left.toList.length) * pollInterval + pollInterval := by
      rw [List.length_cons, Nat.add_right_comm, Nat.succ_mul]
    rcases wake_cases hnext with ⟨hinterval, hearly⟩ | ⟨-, hlast⟩
    · omega
    · have hfew : later.length + left.toList.length ≤ 1 := by
        refine Nat.le_of_lt_succ (Nat.lt_of_mul_lt_mul_right ?_ (a := pollInterval))
        omega
      have hinterval : (later.length + left.toList.length) * pollInterval ≤ 1 * pollInterval :=
        Nat.mul_le_mul_right _ hfew
      omega
  | replies hmade hend hreply =>
    have hpos : 0 < pollInterval := by decide
    simp only [List.length_singleton, Option.toList_none, List.length_nil]
    omega

theorem length_le (h : Polls keys deadline due log left) : log.length + left.toList.length ≤
    (deadline - due * nanosPerMilli) ⌈/⌉ pollInterval + 1 := by
  have hmul := h.length_mul_lt
  refine Nat.sub_le_iff_le_add.1 ?_
  rw [Nat.ceilDiv_eq_add_pred_div, Nat.le_div_iff_mul_le (by decide), Nat.sub_one_mul]
  omega

theorem due_le (h : Polls keys deadline due log left) (hdue : due ≤ deadline ⌈/⌉ nanosPerMilli) :
    ∀ a ∈ log, a.due ≤ deadline ⌈/⌉ nanosPerMilli := by
  induction h with
  | waits due => exact List.forall_mem_nil _
  | again hmade hvain hnext hlater ih =>
    refine List.forall_mem_cons.2 ⟨hdue, ih ?_⟩
    rcases wake_cases hnext with ⟨-, hearly⟩ | ⟨hlast, -⟩
    · simp only [Nat.ceilDiv_eq_add_pred_div, nanosPerMilli] at hearly ⊢
      omega
    · exact hlast.le
  | replies hmade hend hreply => simpa using hdue

theorem inVain_of_waits (h : Polls keys deadline due log left) (hleft : left ≠ none) :
    ∀ a ∈ log, a.InVain keys deadline := by
  induction h with
  | waits due => exact List.forall_mem_nil _
  | again hmade hvain hnext hlater ih => exact List.forall_mem_cons.2 ⟨hvain, ih hleft⟩
  | replies hmade hend hreply => exact absurd rfl hleft

/-- A session waits no more after its first attempt that is not in vain, and only after it. -/
theorem exists_last (h : Polls keys deadline due log left) (hleft : left = none) :
    ∃ earlier last, log = earlier ++ [last] ∧ (∀ a ∈ earlier, a.InVain keys deadline) ∧
      ¬ last.InVain keys deadline ∧ last.progress = .finished (last.found keys) := by
  induction h with
  | waits due => cases hleft
  | @again a next later left hmade hvain hnext hlater ih =>
    obtain ⟨earlier, last, rfl, hearlier, hlast⟩ := ih hleft
    exact ⟨a :: earlier, last, rfl, List.forall_mem_cons.2 ⟨hvain, hearlier⟩, hlast⟩
  | @replies a hmade hend hreply => exact ⟨[], a, rfl, List.forall_mem_nil _, hend, hreply⟩

/-- A null array is replied no earlier than at the deadline, and just then by an attempt in time. -/
theorem made_eq_of_null (h : Polls keys deadline due log left)
    (hdue : due ≤ deadline ⌈/⌉ nanosPerMilli) (ha : a ∈ log) (hend : ¬ a.InVain keys deadline)
    (hnull : a.found keys = .nullArray) :
    deadline ≤ a.made * nanosPerMilli ∧
      (a.made = a.due → a.made = deadline ⌈/⌉ nanosPerMilli) := by
  have hpast : deadline ≤ a.made * nanosPerMilli :=
    Nat.le_of_not_lt fun hahead => hend ⟨hnull, hahead⟩
  refine ⟨hpast, fun htime => ?_⟩
  have hlatest := h.due_le hdue a ha
  rw [← htime] at hlatest
  have hearliest : deadline ⌈/⌉ nanosPerMilli ≤ a.made :=
    (ceilDiv_le_iff_le_mul (by decide)).2 (by rwa [Nat.mul_comm])
  exact hlatest.antisymm hearliest

theorem of_settle (hmade : a.due ≤ a.made)
    (hprogress : a.progress = settle keys (some deadline) a.made (a.found keys))
    (hwaits : ∀ next, Server.next a.progress = some ⟨keys, some deadline, next⟩ →
      Polls keys deadline next later left)
    (hreplies : Server.next a.progress = none → later = [] ∧ left = none) :
    Polls keys deadline a.due (a :: later) left := by
  unfold settle at hprogress
  split at hprogress
  · next hnull =>
    split at hprogress
    · next hpast =>
      have hend : ¬ a.InVain keys deadline := fun hvain =>
        absurd (wake?_eq_none_iff.1 hpast) (Nat.not_le_of_lt hvain.2)
      obtain ⟨rfl, rfl⟩ := hreplies (by rw [hprogress]; rfl)
      exact .replies hmade hend hprogress
    · next next hnext =>
      have hvain : a.InVain keys deadline := ⟨hnull, now_lt_deadline hnext⟩
      exact .again hmade hvain hnext (hwaits next (by rw [hprogress]; rfl))
  · next hsome =>
    have hend : ¬ a.InVain keys deadline := fun hvain => hsome hvain.1
    obtain ⟨rfl, rfl⟩ := hreplies (by rw [hprogress]; rfl)
    exact .replies hmade hend hprogress

end Polls
end Attempt

namespace Server

/-- What keeps a session from waiting on: a request of its own, or its leaving. -/
def Event.Interrupts (number : Nat) : Event → Prop
  | .submit id _ | .leave id => id.number = number
  | _ => False

def Event.isAttemptOf (number : Nat) : Event → Bool
  | .attempt id => id.number == number
  | _ => false

def attempt? (s : Server) (number : Nat) (event : Event) : Option Attempt :=
  if event.isAttemptOf number then
    (s.waiting.lookup number).map fun w =>
      let made := max w.wake s.engine.now
      ⟨w.wake, (s.engine.advanceTo made).keyspace, (s.engine.poll { w with wake := made }).1⟩
  else none

section
variable [Glob.Matcher]

/-- The attempts that a session makes in a run, those that fail too. -/
def attempts (s : Server) (number : Nat) : List Event → List Attempt
  | [] => []
  | event :: rest => (s.attempt? number event).toList ++ attempts (s.step event).2 number rest

variable {s : Server} {number : Nat} {keys : List Bytes} {deadline due : Nat}
  {event : Event} {events : List Event}

omit [Glob.Matcher] in
theorem lookup_settle (s : Server) (id : SessionId) (progress : Progress) (e : Engine)
    (number : Nat) : (s.settle id progress e).waiting.lookup number =
      if number = id.number then next progress else s.waiting.lookup number := by
  have hothers := Engine.lookup_filter_ne s.waiting id.number number
  cases progress with
  | finished reply => exact hothers
  | waiting w =>
    change List.lookup number ((id.number, w) :: s.others id) = _
    rw [List.lookup_cons]
    by_cases hnumber : number = id.number
    · rw [if_pos hnumber, hnumber, beq_self_eq_true]
      rfl
    · rw [beq_false_of_ne hnumber, if_neg hnumber]
      exact hothers.trans (if_neg hnumber)

omit [Glob.Matcher] in
theorem attempt?_of_other (hother : ¬ event.isAttemptOf number = true) :
    s.attempt? number event = none := if_neg hother

omit [Glob.Matcher] in
theorem attempt?_of_rests (hw : s.waiting.lookup number = none) :
    s.attempt? number event = none := by
  rw [attempt?, hw]
  exact ite_self none

omit [Glob.Matcher] in
theorem exists_attempt {w : Waiting} (hown : event.isAttemptOf number = true)
    (hw : s.waiting.lookup number = some w) :
    ∃ a : Attempt, s.attempt? number event = some a ∧ a.due = w.wake ∧ a.due ≤ a.made ∧
      a.progress = Waiting.settle w.keys w.deadline a.made (a.found w.keys) := by
  have hmade : (s.engine.advanceTo (max w.wake s.engine.now)).now = max w.wake s.engine.now :=
    Nat.max_eq_right (Nat.le_max_right _ _)
  refine ⟨_, by rw [attempt?, if_pos hown, hw]; rfl, rfl, ?_, ?_⟩
  · exact (Nat.le_max_left _ _).trans_eq hmade.symm
  · exact congrArg (fun made => Waiting.settle w.keys w.deadline made _) hmade.symm

theorem lookup_step (hown : ¬ event.Interrupts number) :
    (s.step event).2.waiting.lookup number =
      match s.attempt? number event with
      | some a => next a.progress
      | none => s.waiting.lookup number := by
  cases event with
  | begin name => rfl
  | finish id => rfl
  | advance millis => rfl
  | leave id =>
    have hnumber : ¬ number = id.number := fun hnumber => hown hnumber.symm
    exact (Engine.lookup_filter_ne s.waiting id.number number).trans (if_neg hnumber)
  | submit id request =>
    have hnumber : ¬ number = id.number := fun hnumber => hown hnumber.symm
    have hother : ¬ (Event.submit id request).isAttemptOf number = true := Bool.false_ne_true
    rw [attempt?_of_other hother]
    rcases s.step_submit_cases id request with ⟨hstep, -⟩ | ⟨_, progress, e, -, -, hstep, -⟩
    · rw [hstep]
    · rw [hstep, lookup_settle, if_neg hnumber]
  | attempt id =>
    unfold step attempt?
    by_cases hnumber : id.number = number
    · subst hnumber
      simp only [Event.isAttemptOf, beq_self_eq_true, if_true]
      cases hw : s.waiting.lookup id.number with
      | none => exact hw
      | some w => exact (s.lookup_settle id _ _ _).trans (if_pos rfl)
    · simp only [Event.isAttemptOf, beq_false_of_ne hnumber, Bool.false_eq_true, if_false]
      cases s.waiting.lookup id.number with
      | none => rfl
      | some w => exact (s.lookup_settle id _ _ _).trans (if_neg (Ne.symm hnumber))

theorem attempts_of_rests (hown : ∀ event ∈ events, ¬ event.Interrupts number)
    (hw : s.waiting.lookup number = none) :
    s.attempts number events = [] ∧ (s.run events).2.waiting.lookup number = none := by
  induction events generalizing s with
  | nil => exact ⟨rfl, hw⟩
  | cons event rest ih =>
    obtain ⟨hfirst, hlater⟩ := List.forall_mem_cons.1 hown
    have hstep := lookup_step (s := s) hfirst
    rw [attempt?_of_rests hw] at hstep
    obtain ⟨hnone, hrun⟩ := ih hlater (hstep.trans hw)
    rw [attempts, attempt?_of_rests hw, hnone]
    exact ⟨rfl, hrun⟩

/-- By induction on the events: nothing that others do keeps a session from attempting when it is
due to, and until an attempt is not in vain. -/
theorem polls_run (hown : ∀ event ∈ events, ¬ event.Interrupts number)
    (hw : s.waiting.lookup number = some ⟨keys, some deadline, due⟩) :
    Attempt.Polls keys deadline due (s.attempts number events)
      ((s.run events).2.waiting.lookup number) := by
  induction events generalizing s due with
  | nil =>
    rw [attempts, run, hw]
    exact .waits due
  | cons event rest ih =>
    obtain ⟨hfirst, hlater⟩ := List.forall_mem_cons.1 hown
    have hstep := lookup_step (s := s) hfirst
    rw [attempts, run_cons]
    by_cases hevent : event.isAttemptOf number = true
    · obtain ⟨a, ha, rfl, hmade, hprogress⟩ := exists_attempt hevent hw
      rw [ha] at hstep ⊢
      refine .of_settle hmade hprogress (fun next hnext => ?_) fun hnone => ?_
      · exact ih hlater (hstep.trans hnext)
      · exact attempts_of_rests hlater (hstep.trans hnone)
    · rw [attempt?_of_other hevent] at hstep ⊢
      exact ih hlater (hstep.trans hw)

theorem length_attempts_of_waits (hown : ∀ event ∈ events, ¬ event.Interrupts number)
    (hleft : (s.run events).2.waiting.lookup number ≠ none) :
    (s.attempts number events).length = events.countP (·.isAttemptOf number) := by
  induction events generalizing s with
  | nil => rfl
  | cons event rest ih =>
    have hrest := ih (s := (s.step event).2) (List.forall_mem_cons.1 hown).2 hleft
    rw [attempts, List.length_append, hrest, List.countP_cons, Nat.add_comm]
    by_cases hevent : event.isAttemptOf number = true
    · obtain ⟨w, hw⟩ : ∃ w, s.waiting.lookup number = some w :=
        Option.ne_none_iff_exists'.1 fun hnone => hleft (attempts_of_rests hown hnone).2
      obtain ⟨a, ha, -⟩ := exists_attempt hevent hw
      rw [ha, if_pos hevent]
      rfl
    · rw [attempt?_of_other hevent, if_neg hevent]
      rfl

theorem commandsProcessed_attempt (s : Server) (id : SessionId) :
    (s.step (.attempt id)).2.keyspace.stats.commandsProcessed =
      s.keyspace.stats.commandsProcessed := by
  unfold step
  dsimp only
  split
  · rfl
  · exact Engine.commandsProcessed_tryPop _ _

theorem exists_first_attempt {id : SessionId} {session : Session} {request : Frame} {timeout : Nat}
    (hsession : s.engine.session? id = some session) (hnormal : session.state = .normal)
    (hfree : s.waiting.lookup id.number = none)
    (hread : Command.ofFrame request = .ok (.lists (.brpop keys timeout))) :
    let popped := Engine.tryPop (Session.countCommand s.keyspace) keys
    let progress :=
      Waiting.settle keys (Waiting.deadlineAfter s.engine.now timeout) s.engine.now popped.1
    ∃ e, s.engine.submit id request = .ok (progress, e) ∧ e.keyspace = popped.2 ∧
      (s.step (.submit id request)).2 = s.settle id progress e := by
  intro popped progress
  have hhandle : session.handle s.engine.keyspace request =
      (.block keys timeout, session, s.engine.keyspace) := by
    rw [Session.handle, hnormal]
    dsimp only
    rw [hread]
    rfl
  let e := { s.engine with keyspace := popped.2 }.setSession id session
  have hsubmit : s.engine.submit id request = .ok (progress, e) := by
    rw [Engine.submit, hsession]
    dsimp only
    rw [hhandle]
    rfl
  refine ⟨e, hsubmit, rfl, ?_⟩
  unfold step
  simp only [hfree, hsession, hsubmit]

/-- A session that asks to wait, for a time that can be named, replies with the first attempt that
finds something, or else with the first that is made at the deadline or later: which is made in the
very millisecond in which the time is up if it is made when it is due. Whatever other sessions do in
between, it attempts no more often than there are intervals in the time after the first attempt, and
having had so many chances to it has replied. Only the first attempt counts as a command. -/
theorem blocked_session_replies_by_deadline {id : SessionId} {session : Session} {request : Frame}
    {timeout : Nat} (hsession : s.engine.session? id = some session)
    (hnormal : session.state = .normal) (hfree : s.waiting.lookup id.number = none)
    (hread : Command.ofFrame request = .ok (.lists (.brpop keys timeout))) (htimeout : timeout ≠ 0)
    (hnamed : s.engine.now * nanosPerMilli + timeout < horizon * nanosPerMilli)
    (hown : ∀ event ∈ events, ¬ event.Interrupts id.number) :
    let start := s.engine.now
    let deadline := start * nanosPerMilli + timeout
    let counted := Session.countCommand s.keyspace
    let first : Attempt := ⟨start, counted,
      Waiting.settle keys (some deadline) start (Engine.tryPop counted keys).1⟩
    let begun := (s.step (.submit id request)).2
    let retries := begun.attempts id.number events
    let left := (begun.run events).2.waiting.lookup id.number
    (∃ e, s.engine.submit id request = .ok (first.progress, e)) ∧
      begun.keyspace.stats.commandsProcessed = s.keyspace.stats.commandsProcessed + 1 ∧
      (∀ (t : Server) (any : SessionId),
        (t.step (.attempt any)).2.keyspace.stats.commandsProcessed =
          t.keyspace.stats.commandsProcessed) ∧
      retries.length ≤ timeout ⌈/⌉ pollInterval ∧
      (timeout ⌈/⌉ pollInterval ≤ events.countP (·.isAttemptOf id.number) → left = none) ∧
      (left ≠ none → ∀ a ∈ first :: retries, a.InVain keys deadline) ∧
      (left = none → ∃ earlier last, first :: retries = earlier ++ [last] ∧
        (∀ a ∈ earlier, a.InVain keys deadline) ∧
        last.progress = .finished (last.found keys) ∧
        (last.found keys = .nullArray → deadline ≤ last.made * nanosPerMilli ∧
          (last.made = last.due → last.made = deadline ⌈/⌉ nanosPerMilli))) := by
  intro start deadline counted first begun retries left
  have hdeadline : Waiting.deadlineAfter s.engine.now timeout = some deadline :=
    if_neg (not_or.2 ⟨htimeout, Nat.not_le_of_lt hnamed⟩)
  obtain ⟨e, hsubmit, hleft, hstep⟩ := exists_first_attempt hsession hnormal hfree hread
  rw [hdeadline] at hsubmit hstep
  have hbegun : begun.waiting.lookup id.number = next first.progress := by
    rw [show begun = s.settle id first.progress e from hstep, lookup_settle, if_pos rfl]
  have hpolls : Attempt.Polls keys deadline start (first :: retries) left := by
    refine .of_settle (a := first) le_rfl rfl (fun due hdue => ?_) fun hnone => ?_
    · exact polls_run hown (hbegun.trans hdue)
    · exact attempts_of_rests hown (hbegun.trans hnone)
  have hstart : start ≤ deadline ⌈/⌉ nanosPerMilli := by
    rw [Nat.ceilDiv_eq_add_pred_div, Nat.le_div_iff_mul_le (by decide)]
    omega
  have hlength : (retries.length + 1) + left.toList.length ≤ timeout ⌈/⌉ pollInterval + 1 := by
    have htime : deadline - start * nanosPerMilli = timeout :=
      Nat.add_sub_cancel_left (start * nanosPerMilli) timeout
    rw [← htime]
    exact hpolls.length_le
  refine ⟨⟨e, hsubmit⟩, ?_, commandsProcessed_attempt, by omega, fun hturns => ?_, ?_, ?_⟩
  · have hkeyspace : begun.keyspace = e.keyspace := congrArg keyspace hstep
    rw [hkeyspace, hleft, Engine.commandsProcessed_tryPop]
    rfl
  · by_contra hwaits
    have hmade : retries.length = _ := length_attempts_of_waits hown hwaits
    obtain ⟨w, hw⟩ := Option.ne_none_iff_exists'.1 hwaits
    rw [hmade, hw, Option.toList_some, List.length_singleton] at hlength
    omega
  · exact hpolls.inVain_of_waits
  · intro hnone
    obtain ⟨earlier, last, hlog, hearlier, hend, hreply⟩ := hpolls.exists_last hnone
    refine ⟨earlier, last, hlog, hearlier, hreply, hpolls.made_eq_of_null hstart ?_ hend⟩
    rw [hlog]
    exact List.mem_append_right _ (List.mem_singleton_self last)

end

/-- A wait for 70.5 milliseconds while another session pushes elsewhere: attempts at once, after an
interval and in the millisecond in which the time is up. -/
theorem blocked_session_times_out_among_others :
    let first : SessionId := ⟨1, "first"⟩
    let second : SessionId := ⟨2, "second"⟩
    let frame (words : List String) : Frame := .bulkArray (words.map Bytes.ofString)
    let s : Server := (run { engine := { maxQueued := 3 } } [.begin "first", .begin "second"]).2
    let request := frame ["BRPOP", "q", "0.0705"]
    let events : List Event :=
      [.attempt first, .submit second (frame ["RPUSH", "r", "x"]), .attempt first]
    let keys := [Bytes.ofString "q"]
    let retries := (s.step (.submit first request)).2.attempts 1 events
    (∃ session, s.engine.session? first = some session ∧ session.state = .normal) ∧
      s.waiting.lookup 1 = none ∧
      Command.ofFrame request = .ok (.lists (.brpop keys 70500000)) ∧
      (∀ event ∈ events, ¬ event.Interrupts 1) ∧
      retries.length ≤ 70500000 ⌈/⌉ pollInterval ∧
      retries.map (·.made) = [50, 71] ∧
      retries.map (·.progress) =
        [.waiting ⟨keys, some 70500000, 71⟩, .finished .nullArray] := by
  intro first second frame s request events keys retries
  have hsession : s.engine.session? first = some (.initial 1 3) := by decide +kernel
  have hfree : s.waiting.lookup 1 = none := by decide +kernel
  have hread : Command.ofFrame request = .ok (.lists (.brpop keys 70500000)) := by decide +kernel
  have hown : ∀ event ∈ events, ¬ event.Interrupts 1 := by simp [events, second, Event.Interrupts]
  obtain ⟨-, -, -, hlength, -⟩ := blocked_session_replies_by_deadline hsession rfl
    hfree hread (by decide) (by decide +kernel) hown
  exact ⟨⟨_, hsession, rfl⟩, hfree, hread, hown, hlength, by decide +kernel, by decide +kernel⟩

end Server
end RespStore
