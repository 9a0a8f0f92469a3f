import RespStore.Proofs.Interleaving
import RespStore.Proofs.Locality

/-! What an engine makes of the requests of one session, one after another, is a run with no other
session in it. -/
namespace RespStore
open Keyspace

namespace Engine

variable {e e' : Engine} {w w' : Waiting} {id : SessionId} {request : Frame}

theorem now_tryPop (ks : Keyspace) (keys : List Bytes) : (tryPop ks keys).2.now = ks.now := by
  rw [snd_tryPop]
  exact (ListCommand.popFirst_accesses fun _ h => h).now ks

theorem now_lt_wake_of_submit [Glob.Matcher] (h : e.submit id request = .ok (.waiting w, e')) :
    e'.now < w.wake := by
  unfold submit at h
  split at h
  · cases h
  · split at h
    · cases h
    · next keys timeout _ _ hhandle =>
      obtain ⟨-, -, -, rfl⟩ := Session.handle_block hhandle
      obtain ⟨hsettle, rfl⟩ := Prod.mk.inj (Except.ok.inj h)
      have hnow : (tryPop (Session.countCommand e.keyspace) keys).2.now = e.now :=
        now_tryPop _ keys
      have hwake := Waiting.now_lt_wake? (Waiting.eq_of_settle_waiting hsettle).2.2
      exact hnow.trans_lt hwake

theorem now_lt_wake_of_poll (hw : e.now ≤ w.wake) (h : e.poll w = (.waiting w', e')) :
    e'.now < w'.wake := by
  obtain ⟨hsettle, rfl⟩ := Prod.mk.inj h
  have hnow : (tryPop (e.advanceTo w.wake).keyspace w.keys).2.now = w.wake :=
    (now_tryPop _ _).trans (Nat.max_eq_right hw)
  have hwake := Waiting.now_lt_wake? (Waiting.eq_of_settle_waiting hsettle).2.2
  exact hnow.trans_lt hwake

theorem await_of_finished {reply : Frame} (hw : w.deadline.isSome)
    (h : e.poll w = (.finished reply, e')) : e.await w = (some reply, e') := by
  unfold await
  rw [dif_pos hw]
  split
  · next heq =>
    rw [h] at heq
    cases heq
    rfl
  · next heq =>
    rw [h] at heq
    cases heq

theorem await_of_waiting (hw : w.deadline.isSome) (h : e.poll w = (.waiting w', e')) :
    e.await w = e'.await w' := by
  rw [await, dif_pos hw]
  split
  · next heq =>
    rw [h] at heq
    cases heq
  · next heq =>
    rw [h] at heq
    cases heq
    rfl

theorem await_of_no_deadline (hw : ¬ w.deadline.isSome) : e.await w = (none, e) := by
  rw [await, dif_neg hw]

end Engine

namespace Server

variable {e e' : Engine} {w : Waiting} {id : SessionId} {request : Frame} [Glob.Matcher]

theorem run_cons (s : Server) (event : Event) (rest : List Event) :
    (s.run (event :: rest)).2 = ((s.step event).2.run rest).2 := rfl

theorem run_append (s : Server) (first last : List Event) :
    (s.run (first ++ last)).2 = ((s.run first).2.run last).2 := by
  induction first generalizing s with
  | nil => rfl
  | cons event rest ih => exact ih _

/-- An engine with one session at most that waits. -/
def alone (e : Engine) (id : SessionId) (w : Option Waiting) : Server :=
  ⟨e, (w.map (id.number, ·)).toList⟩

def next : Progress → Option Waiting
  | .finished _ => none
  | .waiting w => some w

omit [Glob.Matcher] in
theorem settle_alone (before : Option Waiting) (progress : Progress) :
    (alone e id before).settle id progress e' = alone e' id (next progress) := by
  have hothers : (alone e id before).others id = [] := by
    cases before <;> simp [alone, others]
  unfold settle
  rw [hothers]
  cases progress <;> rfl

theorem step_submit_alone {progress : Progress}
    (h : e.submit id request = .ok (progress, e')) :
    ((alone e id none).step (.submit id request)).2 = alone e' id (next progress) := by
  obtain ⟨session, hsession⟩ : ∃ session, e.session? id = some session := by
    unfold Engine.submit at h
    split at h
    · cases h
    · next session hsession => exact ⟨session, hsession⟩
  simp only [step, alone, hsession, h]
  exact settle_alone none progress

theorem step_attempt_alone (id : SessionId) (hw : e.now ≤ w.wake) :
    ((alone e id (some w)).step (.attempt id)).2 =
      alone (e.poll w).2 id (next (e.poll w).1) := by
  have hwaits : (alone e id (some w)).waiting.lookup id.number = some w := by simp [alone]
  have hwake : max w.wake (alone e id (some w)).engine.now = w.wake := Nat.max_eq_left hw
  simp only [step, hwaits, hwake]
  exact settle_alone (some w) _

/-- By induction on the attempts that are made until there is a reply. -/
theorem run_await (e : Engine) (w : Waiting) (id : SessionId) (hw : e.now ≤ w.wake) :
    ∃ n left, ((alone e id (some w)).run (List.replicate n (.attempt id))).2 =
        alone (e.await w).2 id left ∧ ((e.await w).1.isSome → left = none) := by
  induction e, w using Engine.await.induct with
  | case1 e w hdeadline reply e' hpoll =>
    rw [Engine.await_of_finished hdeadline hpoll]
    refine ⟨1, none, ?_, fun _ => rfl⟩
    have hstep := step_attempt_alone id hw
    rwa [hpoll] at hstep
  | case2 e w hdeadline w' e' hpoll ih =>
    rw [Engine.await_of_waiting hdeadline hpoll]
    obtain ⟨n, left, hrun, hleft⟩ := ih (Engine.now_lt_wake_of_poll hw hpoll).le
    refine ⟨n + 1, left, ?_, hleft⟩
    have hstep := step_attempt_alone id hw
    rw [hpoll] at hstep
    rw [List.replicate_succ, run_cons, hstep]
    exact hrun
  | case3 e w hdeadline =>
    rw [Engine.await_of_no_deadline hdeadline]
    exact ⟨0, some w, rfl, nofun⟩

theorem run_executeFrame {reply : Option Frame} (h : e.executeFrame id request = .ok (reply, e')) :
    ∃ n left, ((alone e id none).run (.submit id request :: List.replicate n (.attempt id))).2 =
      alone e' id left ∧ (reply.isSome → left = none) := by
  unfold Engine.executeFrame at h
  split at h
  · cases h
  · next hsubmit =>
    cases h
    exact ⟨0, none, step_submit_alone hsubmit, fun _ => rfl⟩
  · next w e'' hsubmit =>
    obtain ⟨n, left, hrun, hleft⟩ :=
      run_await e'' w id (Engine.now_lt_wake_of_submit hsubmit).le
    rw [Except.ok.inj h] at hrun hleft
    refine ⟨n, left, ?_, hleft⟩
    rw [run_cons, step_submit_alone hsubmit]
    exact hrun

/-- What an engine makes of a pipeline is a run in which one session is handed the requests in it and
attempts to pop. -/
theorem run_servePipeline (e : Engine) (id : SessionId) (frames : List Frame) :
    ∃ events left, ((alone e id none).run events).2 = alone (e.servePipeline id frames).2 id left ∧
      ∀ event ∈ events, event = .attempt id ∨ ∃ frame ∈ frames, event = .submit id frame := by
  induction frames generalizing e with
  | nil => exact ⟨[], none, rfl, nofun⟩
  | cons frame rest ih =>
    have hmore {events : List Event}
        (h : ∀ event ∈ events, event = .attempt id ∨ ∃ f ∈ rest, event = .submit id f) :
        ∀ event ∈ events, event = .attempt id ∨ ∃ f ∈ frame :: rest, event = .submit id f := by
      intro event hevent
      rcases h event hevent with heq | ⟨f, hf, heq⟩
      · exact .inl heq
      · exact .inr ⟨f, List.mem_cons_of_mem _ hf, heq⟩
    have hfirst (n : Nat) : ∀ event ∈ Event.submit id frame :: List.replicate n (.attempt id),
        event = .attempt id ∨ ∃ f ∈ frame :: rest, event = .submit id f := by
      intro event hevent
      rcases List.mem_cons.1 hevent with heq | hevent
      · exact .inr ⟨frame, List.mem_cons_self, heq⟩
      · exact .inl (List.eq_of_mem_replicate hevent)
    unfold Engine.servePipeline
    split
    · obtain ⟨events, left, hrun, hevents⟩ := ih e
      exact ⟨events, left, hrun, hmore hevents⟩
    · next e' hserved =>
      obtain ⟨n, left, hrun, -⟩ := run_executeFrame hserved
      exact ⟨_, left, hrun, hfirst n⟩
    · next reply e' hserved =>
      obtain ⟨n, left, hrun, hleft⟩ := run_executeFrame hserved
      obtain rfl := hleft rfl
      split
      · exact ⟨_, none, hrun, hfirst n⟩
      · obtain ⟨events, left, hlater, hevents⟩ := ih e'
        refine ⟨_ ++ events, left, ?_, List.forall_mem_append.2 ⟨hfirst n, hmore hevents⟩⟩
        rw [run_append, hrun]
        exact hlater

end Server
end RespStore
