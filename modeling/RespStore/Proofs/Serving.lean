import RespStore.Connection
import RespStore.Proofs.Unanswered

/-! Serving requests one at a time and in batches. The two differ only in what has been written when
a request never gets a reply. -/
namespace RespStore
open Engine (Ending)

namespace Connection

/-- Goes on from where serving got to, unless it got no further. -/
def goOn (r : Bytes × Ending × Engine) (next : Engine → Bytes × Ending × Engine) :
    Bytes × Ending × Engine :=
  match r with
  | (written, .through, e) => (written ++ (next e).1, (next e).2)
  | (written, ending, e) => (written, ending, e)

section
variable {r : Bytes × Ending × Engine} (f g : Engine → Bytes × Ending × Engine)

theorem ne_stuck_of_through (h : r.2.1 = .through) : r.2.1 ≠ .stuck := by
  simp [h]

theorem ne_through_of_stuck (h : r.2.1 = .stuck) : r.2.1 ≠ .through := by
  simp [h]

theorem goOn_of_through (h : r.2.1 = .through) :
    goOn r f = (r.1 ++ (f r.2.2).1, (f r.2.2).2) := by
  obtain ⟨written, ending, e⟩ := r
  cases h
  rfl

theorem goOn_of_ne_through (h : r.2.1 ≠ .through) : goOn r f = r := by
  obtain ⟨written, ending, e⟩ := r
  cases ending with
  | through => exact absurd rfl h
  | quit | stuck => rfl

theorem through_of_goOn (h : (goOn r f).2.1 = .through) : r.2.1 = .through := by
  by_contra hr
  rw [goOn_of_ne_through f hr] at h
  exact hr h

theorem stuck_goOn_iff (hf : ∀ e, (f e).2.1 = .through) :
    (goOn r f).2.1 = .stuck ↔ r.2.1 = .stuck := by
  by_cases hr : r.2.1 = .through
  · rw [goOn_of_through f hr]
    exact iff_of_false (ne_stuck_of_through (hf _)) (ne_stuck_of_through hr)
  · rw [goOn_of_ne_through f hr]

theorem snd_goOn_congr {r' : Bytes × Ending × Engine} (h : r.2 = r'.2) :
    (goOn r f).2 = (goOn r' f).2 := by
  obtain ⟨written, ending, e⟩ := r
  obtain ⟨written', ending', e'⟩ := r'
  cases h
  cases ending <;> rfl

theorem goOn_goOn : goOn (goOn r f) g = goOn r fun e => goOn (f e) g := by
  by_cases hr : r.2.1 = .through
  · rw [goOn_of_through f hr, goOn_of_through _ hr]
    by_cases hf : (f r.2.2).2.1 = .through
    · rw [goOn_of_through g hf, goOn_of_through g (by exact hf), List.append_assoc]
    · rw [goOn_of_ne_through g hf, goOn_of_ne_through g (by exact hf)]
  · rw [goOn_of_ne_through f hr, goOn_of_ne_through g hr, goOn_of_ne_through _ hr]

end

/-- All batches before the one with the request that comes after those in `before`. -/
def Complete (done batches : List (List Frame)) (before : List Frame) : Prop :=
  ∃ first last rest, batches = done ++ (first ++ last) :: rest ∧ last ≠ [] ∧
    before = done.flatten ++ first

theorem Complete.cons {done rest : List (List Frame)} {before : List Frame}
    (batch : List Frame) (h : Complete done rest before) :
    Complete (batch :: done) (batch :: rest) (batch ++ before) := by
  obtain ⟨first, last, after, rfl, hlast, rfl⟩ := h
  refine ⟨first, last, after, rfl, hlast, ?_⟩
  rw [List.flatten_cons, List.append_assoc]

variable [Glob.Matcher]

/-- Serves one request. Nothing is written for one that never gets a reply. -/
def serveOne (e : Engine) (id : SessionId) (frame : Frame) : Bytes × Ending × Engine :=
  match e.executeFrame id frame with
  | .error cause => (errorLine cause.message, .through, e)
  | .ok (none, e) => ([], .stuck, e)
  | .ok (some reply, e) =>
    (reply.serialize, if (e.client? id).any (·.quit) then .quit else .through, e)

def serveSingly (e : Engine) (id : SessionId) : List Frame → Bytes × Ending × Engine
  | [] => ([], .through, e)
  | frame :: rest => goOn (serveOne e id frame) fun e => serveSingly e id rest

theorem serveSingly_append (e : Engine) (id : SessionId) (first last : List Frame) :
    serveSingly e id (first ++ last) =
      goOn (serveSingly e id first) fun e => serveSingly e id last := by
  induction first generalizing e with
  | nil => rfl
  | cons frame rest ih =>
    have hrest : (fun e => serveSingly e id (rest ++ last)) =
        fun e => goOn (serveSingly e id rest) fun e => serveSingly e id last := funext ih
    rw [List.cons_append, serveSingly, serveSingly, goOn_goOn, hrest]

/-- Pipelined requests get the replies that they get one at a time. -/
theorem serveSingly_eq (e : Engine) (id : SessionId) (frames : List Frame) :
    serveSingly e id frames = (Frame.serializeAll (e.servePipeline id frames).1.replies,
      (e.servePipeline id frames).1.ending, (e.servePipeline id frames).2) := by
  induction frames generalizing e with
  | nil => rfl
  | cons frame rest ih =>
    unfold serveSingly serveOne Engine.servePipeline
    rcases e.executeFrame id frame with cause | ⟨_ | reply, e'⟩
    · change (errorLine cause.message ++ (serveSingly e id rest).1, (serveSingly e id rest).2) = _
      rw [ih e]
      rfl
    · rfl
    · by_cases hquit : (e'.client? id).any (·.quit) = true
      · simp only [hquit, if_true]
        exact congrArg (·, _) (List.append_nil _).symm
      · simp only [hquit]
        change (reply.serialize ++ (serveSingly e' id rest).1, (serveSingly e' id rest).2) = _
        rw [ih e']
        rfl

/-- One at a time, requests are served up to one that never gets a reply. -/
def StuckAfter (e : Engine) (id : SessionId) (frames before : List Frame) : Prop :=
  ∃ request after, frames = before ++ request :: after ∧ (serveSingly e id before).2.1 = .through ∧
    (serveSingly e id before).2.2.NeverAnswers id request

section
variable {e : Engine} {id : SessionId} {frames before : List Frame}

theorem stuck_serveOne_iff (e : Engine) (id : SessionId) (frame : Frame) :
    (serveOne e id frame).2.1 = .stuck ↔ e.NeverAnswers id frame := by
  rw [← Engine.executeFrame_eq_none_iff]
  unfold serveOne
  rcases e.executeFrame id frame with cause | ⟨_ | reply, e'⟩
  · exact iff_of_false nofun nofun
  · exact iff_of_true rfl ⟨e', rfl⟩
  · refine iff_of_false (fun hstuck => ?_) nofun
    dsimp only at hstuck
    split at hstuck <;> cases hstuck

theorem serveOne_of_neverAnswers {request : Frame} (h : e.NeverAnswers id request) :
    ∃ e', serveOne e id request = ([], .stuck, e') := by
  obtain ⟨e', hnone⟩ := Engine.executeFrame_eq_none_iff.2 h
  exact ⟨e', by rw [serveOne, hnone]⟩

theorem StuckAfter.serveSingly (h : StuckAfter e id frames before) :
    (serveSingly e id frames).1 = (serveSingly e id before).1 ∧
      (serveSingly e id frames).2.1 = .stuck := by
  obtain ⟨request, after, rfl, hthrough, hnever⟩ := h
  obtain ⟨e', hstuck⟩ := serveOne_of_neverAnswers hnever
  have hrest : Connection.serveSingly (Connection.serveSingly e id before).2.2 id
      (request :: after) = ([], .stuck, e') := by
    rw [Connection.serveSingly, hstuck]
    rfl
  rw [serveSingly_append, goOn_of_through _ hthrough, hrest, List.append_nil]
  exact ⟨rfl, rfl⟩

/-- The request that never gets a reply is among the last ones or among the first. -/
theorem StuckAfter.cases_append {first last : List Frame}
    (h : StuckAfter e id (first ++ last) before) :
    (∃ more, before = first ++ more ∧ (Connection.serveSingly e id first).2.1 = .through ∧
      StuckAfter (Connection.serveSingly e id first).2.2 id last more) ∨
        StuckAfter e id first before := by
  obtain ⟨request, after, hframes, hthrough, hnever⟩ := h
  have hlater {more : List Frame} (hbefore : before = first ++ more)
      (hlast : last = more ++ request :: after) :
      ∃ more, before = first ++ more ∧ (Connection.serveSingly e id first).2.1 = .through ∧
        StuckAfter (Connection.serveSingly e id first).2.2 id last more := by
    rw [hbefore, serveSingly_append] at hthrough hnever
    have hfirst := through_of_goOn _ hthrough
    rw [goOn_of_through _ hfirst] at hthrough hnever
    exact ⟨more, hbefore, hfirst, request, after, hlast, hthrough, hnever⟩
  rcases List.append_eq_append_iff.1 hframes with ⟨more, hbefore, hlast⟩ | ⟨rest, hfirst, hrest⟩
  · left
    exact hlater hbefore hlast
  · cases rest with
    | nil =>
      left
      rw [List.append_nil] at hfirst
      have hbefore : before = first ++ [] := by simp [hfirst]
      exact hlater hbefore hrest.symm
    | cons r rest =>
      right
      obtain ⟨rfl, -⟩ := List.cons.inj hrest
      exact ⟨request, rest, hfirst, hthrough, hnever⟩

/-- By induction on the requests: serving them gets stuck at one that never gets a reply, and at no
other. -/
theorem stuck_serveSingly_iff (e : Engine) (id : SessionId) (frames : List Frame) :
    (serveSingly e id frames).2.1 = .stuck ↔ ∃ before, StuckAfter e id frames before := by
  refine ⟨fun h => ?_, fun ⟨before, h⟩ => h.serveSingly.2⟩
  induction frames generalizing e with
  | nil => cases h
  | cons frame rest ih =>
    rw [serveSingly] at h
    by_cases hone : (serveOne e id frame).2.1 = .through
    · rw [goOn_of_through _ hone] at h
      obtain ⟨before, request, after, rfl, hthrough, hnever⟩ := ih _ h
      refine ⟨frame :: before, request, after, rfl, ?_, ?_⟩
      · rwa [serveSingly, goOn_of_through _ hone]
      · rwa [serveSingly, goOn_of_through _ hone]
    · rw [goOn_of_ne_through _ hone] at h
      exact ⟨[], frame, rest, rfl, rfl, (stuck_serveOne_iff e id frame).1 h⟩

end

/-- A batch of requests: of one that gets stuck nothing is written. -/
def serveBatch (e : Engine) (id : SessionId) (batch : List Frame) : Bytes × Ending × Engine :=
  let (served, e) := e.servePipeline id batch
  (if served.ending = .stuck then [] else Frame.serializeAll served.replies, served.ending, e)

section
variable {e : Engine} {id : SessionId} {batch : List Frame}

theorem serveBatch_of_ne_stuck (h : (serveSingly e id batch).2.1 ≠ .stuck) :
    serveBatch e id batch = serveSingly e id batch := by
  rw [serveSingly_eq] at h ⊢
  exact congrArg (·, _) (if_neg h)

theorem serveBatch_of_stuck (h : (serveSingly e id batch).2.1 = .stuck) :
    serveBatch e id batch = ([], (serveSingly e id batch).2) := by
  rw [serveSingly_eq] at h ⊢
  exact congrArg (·, _) (if_pos h)

theorem serveBatches_cons (e : Engine) (id : SessionId) (batch : List Frame)
    (rest : List (List Frame)) : serveBatches e id (batch :: rest) =
      goOn (serveBatch e id batch) fun e => serveBatches e id rest := by
  rw [serveBatches, serveBatch]
  rcases e.servePipeline id batch with ⟨⟨replies, ending⟩, e'⟩
  cases ending <;> rfl

theorem serveBatches_of_first_stuck (h : (serveSingly e id batch).2.1 = .stuck)
    (rest : List (List Frame)) :
    serveBatches e id (batch :: rest) = ([], (serveSingly e id batch).2) := by
  rw [serveBatches_cons, serveBatch_of_stuck h]
  exact goOn_of_ne_through _ (ne_through_of_stuck h)

theorem serveBatches_append (e : Engine) (id : SessionId) (first last : List (List Frame)) :
    serveBatches e id (first ++ last) =
      goOn (serveBatches e id first) fun e => serveBatches e id last := by
  induction first generalizing e with
  | nil => rfl
  | cons batch rest ih =>
    have hrest : (fun e => serveBatches e id (rest ++ last)) =
        fun e => goOn (serveBatches e id rest) fun e => serveBatches e id last := funext ih
    rw [List.cons_append, serveBatches_cons, serveBatches_cons, goOn_goOn, hrest]

/-- Batches in which all requests are replied to are served as if there were none. -/
theorem serveBatches_of_ne_stuck {batches : List (List Frame)}
    (h : (serveSingly e id batches.flatten).2.1 ≠ .stuck) :
    serveBatches e id batches = serveSingly e id batches.flatten := by
  induction batches generalizing e with
  | nil => rfl
  | cons batch rest ih =>
    rw [List.flatten_cons, serveSingly_append] at h ⊢
    rw [serveBatches_cons]
    by_cases hbatch : (serveSingly e id batch).2.1 = .through
    · rw [goOn_of_through _ hbatch] at h
      rw [serveBatch_of_ne_stuck (ne_stuck_of_through hbatch), goOn_of_through _ hbatch,
        goOn_of_through _ hbatch, ih h]
    · rw [goOn_of_ne_through _ hbatch] at h
      rw [serveBatch_of_ne_stuck h, goOn_of_ne_through _ hbatch, goOn_of_ne_through _ hbatch]

/-- By induction on the batches: those before the one that gets stuck are served and written, and
of that one nothing is written. -/
theorem serveBatches_of_stuckAfter {batches : List (List Frame)} {before : List Frame}
    (h : StuckAfter e id batches.flatten before) :
    ∃ done, Complete done batches before ∧ serveBatches e id batches =
      ((serveSingly e id done.flatten).1, (serveSingly e id batches.flatten).2) := by
  induction batches generalizing e before with
  | nil =>
    obtain ⟨request, after, hframes, -⟩ := h
    cases before <;> cases hframes
  | cons batch rest ih =>
    rw [List.flatten_cons] at h
    rcases h.cases_append with ⟨more, rfl, hbatch, hmore⟩ | hbatch
    · obtain ⟨done, hdone, hserved⟩ := ih hmore
      refine ⟨batch :: done, hdone.cons batch, ?_⟩
      rw [serveBatches_cons, serveBatch_of_ne_stuck (ne_stuck_of_through hbatch),
        goOn_of_through _ hbatch, hserved, List.flatten_cons, List.flatten_cons,
        serveSingly_append, serveSingly_append, goOn_of_through _ hbatch,
        goOn_of_through _ hbatch]
    · have hstuck := hbatch.serveSingly.2
      obtain ⟨request, last, hframes, -⟩ := hbatch
      have hfirst : Complete [] (batch :: rest) before := by
        rw [hframes]
        exact ⟨before, request :: last, rest, rfl, List.cons_ne_nil _ _, rfl⟩
      refine ⟨[], hfirst, ?_⟩
      rw [serveBatches_of_first_stuck hstuck, List.flatten_cons, serveSingly_append,
        goOn_of_ne_through _ (ne_through_of_stuck hstuck)]
      rfl

theorem snd_serveBatches (batches : List (List Frame)) :
    (serveBatches e id batches).2 = (serveSingly e id batches.flatten).2 := by
  by_cases hstuck : (serveSingly e id batches.flatten).2.1 = .stuck
  · obtain ⟨before, hbefore⟩ := (stuck_serveSingly_iff _ _ _).1 hstuck
    obtain ⟨done, -, hserved⟩ := serveBatches_of_stuckAfter hbefore
    rw [hserved]
  · rw [serveBatches_of_ne_stuck hstuck]

end

end Connection
end RespStore
