import RespStore.Proofs.Holding
import RespStore.Proofs.Interleaving.Pipeline

/-! The requests that never get a reply while no other session acts. -/
namespace RespStore

namespace Keyspace

variable {ks : Keyspace} {key : Bytes} {keys : List Bytes}

/-- There is no element to pop under a key. -/
def Bare (ks : Keyspace) (key : Bytes) : Prop :=
  ks.held key = none ∨ ks.held key = some (.list [])

open ListCommand

/-- An attempt at a bare key goes on to the next key, and makes no key bare that was not. -/
theorem Bare.afterPop (h : ks.Bare key) (rest : List Bytes) :
    ListCommand.afterPop key rest (ks.update key (popTail 1)).1 (ks.update key (popTail 1)).2 =
        popFirst (ks.update key (popTail 1)).2 rest ∧
      ∀ k, (ks.update key (popTail 1)).2.Bare k ↔ ks.Bare k := by
  rcases h with hnone | hempty
  · obtain ⟨hresult, hlive⟩ := update_of_absent (Option.map_eq_none_iff.1 hnone) (popTail 1)
    rw [hresult]
    refine ⟨rfl, fun k => ?_⟩
    unfold Bare held
    rw [hlive]
  · obtain ⟨⟨value, deadline⟩, hslot, rfl⟩ := Option.map_eq_some_iff.1 hempty
    obtain ⟨hresult, hlive⟩ := update_of_found (c := ([] : List Bytes)) hslot (popTail 1)
    rw [hresult]
    refine ⟨rfl, fun k => ?_⟩
    by_cases hk : k = key
    · have hleft : (ks.update key (popTail 1)).2.held key = none := by
        unfold held
        rw [hlive, Table.get?_set, if_pos rfl]
        rfl
      rw [hk]
      exact iff_of_true (.inl hleft) (.inr hempty)
    · unfold Bare held
      rw [hlive, Table.get?_set, if_neg hk]

theorem afterPop_ne_null (h : ¬ ks.Bare key) (rest : List Bytes) :
    (ListCommand.afterPop key rest (ks.update key (popTail 1)).1
      (ks.update key (popTail 1)).2).1 ≠ .ok .nullArray := by
  obtain ⟨⟨value, deadline⟩, hslot⟩ : ∃ e, ks.live.get? key = some e := by
    refine Option.ne_none_iff_exists'.1 fun hnone => h (.inl ?_)
    rw [held, hnone]
    rfl
  cases value with
  | list items =>
    have hne : items ≠ [] := by
      rintro rfl
      exact h (.inr (by rw [held, hslot]; rfl))
    obtain ⟨init, value, rfl⟩ := (List.eq_nil_or_concat items).resolve_left hne
    have hpop : (popTail 1 (init.concat value)).1 = [value] := by simp [popTail]
    rw [(update_of_found (c := init.concat value) hslot (popTail 1)).1, hpop]
    intro hnull
    cases hnull
  | _ =>
    have hresult : (ks.update key (popTail 1)).1 = .error .wrongType := by
      refine (ks.tryAccess_fst key _).trans ?_
      rw [hslot]
      rfl
    rw [hresult]
    intro hnull
    cases hnull

/-- By induction on the keys. -/
theorem popFirst_eq_null_iff (ks : Keyspace) (keys : List Bytes) :
    (popFirst ks keys).1 = .ok .nullArray ↔ ∀ key ∈ keys, ks.Bare key := by
  induction keys generalizing ks with
  | nil => exact iff_of_true rfl (List.forall_mem_nil _)
  | cons key rest ih =>
    rw [popFirst_cons, List.forall_mem_cons]
    by_cases hkey : ks.Bare key
    · obtain ⟨hgoesOn, hsame⟩ := hkey.afterPop rest
      rw [hgoesOn, ih, and_iff_right hkey]
      exact forall₂_congr fun k _ => hsame k
    · exact iff_of_false (afterPop_ne_null hkey rest) fun h => hkey h.1

end Keyspace

namespace Engine

variable {e e' : Engine} {w : Waiting} {id : SessionId} {request : Frame}

theorem tryPop_eq_null_iff (ks : Keyspace) (keys : List Bytes) :
    (tryPop ks keys).1 = .nullArray ↔ ∀ key ∈ keys, ks.Bare key := by
  rw [← ks.popFirst_eq_null_iff]
  unfold tryPop
  rcases ListCommand.popFirst ks keys with ⟨cause | reply, ks'⟩
  · exact iff_of_false nofun nofun
  · exact Except.ok.injEq _ _ ▸ Iff.rfl

/-- Polling comes to an end at the deadline at the latest, if there is one. -/
theorem await_eq_none_iff (e : Engine) (w : Waiting) :
    (e.await w).1 = none ↔ w.deadline = none := by
  induction e, w using await.induct with
  | case1 e w hdeadline reply e' hpoll =>
    rw [await_of_finished hdeadline hpoll]
    refine iff_of_false (Option.some_ne_none reply) fun hnone => ?_
    rw [hnone] at hdeadline
    cases hdeadline
  | case2 e w hdeadline w' e' hpoll ih =>
    have hsame : w'.deadline = w.deadline :=
      (Waiting.eq_of_settle_waiting (Prod.mk.inj hpoll).1).2.1
    rw [await_of_waiting hdeadline hpoll, ih, hsame]
  | case3 e w hdeadline =>
    rw [await_of_no_deadline hdeadline]
    exact iff_of_true rfl (Option.not_isSome_iff_eq_none.1 hdeadline)

/-- A session outside a transaction asks to wait for an element where there is none, until an
instant that never comes. -/
def NeverAnswers (e : Engine) (id : SessionId) (request : Frame) : Prop :=
  ∃ s keys timeout, e.session? id = some s ∧ s.state = .normal ∧
    Command.ofFrame request = .ok (.lists (.brpop keys timeout)) ∧
    Waiting.deadlineAfter e.now timeout = none ∧ ∀ key ∈ keys, e.keyspace.Bare key

theorem null_of_settle_waiting {keys : List Bytes} {deadline : Option Nat} {now : Nat}
    {reply : Frame} (h : Waiting.settle keys deadline now reply = .waiting w) :
    reply = .nullArray := by
  by_contra hreply
  rw [Waiting.settle, if_neg hreply] at h
  cases h

variable [Glob.Matcher]

theorem submit_of_block {s s' : Session} {keys : List Bytes} {timeout : Nat} {ks : Keyspace}
    (hs : e.session? id = some s)
    (h : s.handle e.keyspace request = (.block keys timeout, s', ks)) :
    e.submit id request = .ok
      (Waiting.settle keys (Waiting.deadlineAfter e.now timeout) e.now
          (tryPop (Session.countCommand ks) keys).1,
        { e with keyspace := (tryPop (Session.countCommand ks) keys).2 }.setSession id s') := by
  unfold submit
  rw [hs]
  dsimp only
  rw [h]

/-- A session that goes on to wait has asked to, and has found nothing at once. -/
theorem exists_of_submit_waiting (h : e.submit id request = .ok (.waiting w, e')) :
    ∃ s keys timeout, e.session? id = some s ∧ s.state = .normal ∧
      Command.ofFrame request = .ok (.lists (.brpop keys timeout)) ∧
      Waiting.deadlineAfter e.now timeout = w.deadline ∧ ∀ key ∈ keys, e.keyspace.Bare key := by
  have hsubmit := h
  unfold submit at h
  split at h
  · cases h
  · next s hs =>
    split at h
    · cases h
    · next keys timeout _ _ hhandle =>
      obtain ⟨hnormal, hread, -, rfl⟩ := Session.handle_block hhandle
      rw [submit_of_block hs hhandle] at hsubmit
      have hsettle := (Prod.mk.inj (Except.ok.inj hsubmit)).1
      have hbare := (tryPop_eq_null_iff _ keys).1 (null_of_settle_waiting hsettle)
      obtain ⟨-, hdeadline, -⟩ := Waiting.eq_of_settle_waiting hsettle
      exact ⟨s, keys, timeout, hs, hnormal, hread, hdeadline.symm, hbare⟩

theorem NeverAnswers.exists_submit (h : e.NeverAnswers id request) :
    ∃ w e', e.submit id request = .ok (.waiting w, e') ∧ w.deadline = none := by
  obtain ⟨s, keys, timeout, hs, hnormal, hread, hdeadline, hbare⟩ := h
  have hhandle : s.handle e.keyspace request = (.block keys timeout, s, e.keyspace) := by
    unfold Session.handle
    rw [hnormal, hread]
    rfl
  have hnull : (tryPop (Session.countCommand e.keyspace) keys).1 = .nullArray :=
    (tryPop_eq_null_iff _ keys).2 hbare
  have hsubmit := submit_of_block hs hhandle
  rw [hdeadline, hnull] at hsubmit
  exact ⟨_, _, hsubmit, rfl⟩

/-- A request of a session gets no reply, while no other session acts, in this one case. -/
theorem executeFrame_eq_none_iff :
    (∃ e', e.executeFrame id request = .ok (none, e')) ↔ e.NeverAnswers id request := by
  constructor
  · rintro ⟨e', h⟩
    unfold executeFrame at h
    split at h
    · cases h
    · cases h
    · next w e'' hsubmit =>
      have hnone := (await_eq_none_iff e'' w).1 (congrArg Prod.fst (Except.ok.inj h))
      obtain ⟨s, keys, timeout, hs, hnormal, hread, hdeadline, hbare⟩ :=
        exists_of_submit_waiting hsubmit
      exact ⟨s, keys, timeout, hs, hnormal, hread, hdeadline.trans hnone, hbare⟩
  · intro h
    obtain ⟨w, e', hsubmit, hdeadline⟩ := h.exists_submit
    refine ⟨e', ?_⟩
    unfold executeFrame
    rw [hsubmit]
    dsimp only
    rw [await_of_no_deadline (by rw [hdeadline]; nofun)]

end Engine
end RespStore
