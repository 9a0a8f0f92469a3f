import RespStore.Proofs.Session

/-! Transactions: what a session makes of MULTI, the requests after it, and EXEC. -/
namespace RespStore

/-- A request that comes some milliseconds after the one before it. -/
structure Timed where
  gap : Nat
  request : Frame

namespace Timed

def ofWords (words : List String) : Timed := ⟨0, .bulkArray (words.map Bytes.ofString)⟩

def read (t : Timed) : Except RequestError Command := Command.ofFrame t.request

def isMulti (t : Timed) : Bool :=
  match t.read with
  | .ok (.transaction .multi) => true
  | _ => false

/-- The command that a transaction gathers for what was read, if any. -/
def gathered? : Except RequestError Command → Option Command
  | .ok (.transaction _) | .error _ => none
  | .ok c => some c

def gatherReply : Except RequestError Command → Frame
  | .ok (.transaction _) => .error TransactionError.nestedMulti.message
  | .ok _ => .simple "QUEUED"
  | .error e => .error e.message

theorem gathered?_eq_some_iff {r : Except RequestError Command} {c : Command} :
    gathered? r = some c ↔ r = .ok c ∧ ∀ tc, c ≠ .transaction tc := by
  constructor
  · intro h
    unfold gathered? at h
    split at h
    · cases h
    · cases h
    · next hc =>
      cases h
      exact ⟨rfl, fun tc heq => hc tc heq⟩
  · rintro ⟨rfl, hc⟩
    cases c with
    | transaction tc => exact absurd rfl (hc tc)
    | _ => rfl

theorem gatherReply_command {c : Command} (hc : ∀ tc, c ≠ .transaction tc) :
    gatherReply (.ok c) = .simple "QUEUED" := by
  cases c with
  | transaction tc => exact absurd rfl (hc tc)
  | _ => rfl

/-- The commands that a transaction gathers from requests, if it has room for all. -/
def gathered (block : List Timed) : List Command := block.filterMap (gathered? ·.read)

theorem gathered_cons (t : Timed) (rest : List Timed) :
    gathered (t :: rest) = (gathered? t.read).toList ++ gathered rest := by
  unfold gathered
  cases h : gathered? t.read with
  | none => simp only [List.filterMap_cons, h, Option.toList_none, List.nil_append]
  | some c => simp only [List.filterMap_cons, h, Option.toList_some, List.singleton_append]

def EndsBlock (t : Timed) : Prop :=
  t.read = .ok (.transaction .exec) ∨ t.read = .ok (.transaction .discard)

/-- The time from before the first request to the last one. -/
def elapsed : List Timed → Nat
  | [] => 0
  | t :: rest => t.gap + elapsed rest

theorem elapsed_cons (t : Timed) (rest : List Timed) :
    elapsed (t :: rest) = t.gap + elapsed rest := rfl

theorem elapsed_append (first last : List Timed) :
    elapsed (first ++ last) = elapsed first + elapsed last := by
  induction first with
  | nil => exact (Nat.zero_add _).symm
  | cons t rest ih => rw [List.cons_append, elapsed, ih, elapsed, Nat.add_assoc]

/-- Requests that are all read are commands to gather, but for those that begin a transaction. -/
theorem map_read_filter {block : List Timed} (hblock : ∀ t ∈ block, ¬ t.EndsBlock)
    (hread : ∀ t ∈ block, t.read.isOk) :
    (block.filter (!·.isMulti)).map read = (gathered block).map Except.ok := by
  induction block with
  | nil => rfl
  | cons t rest ih =>
    have hrest := ih (fun u hu => hblock u (List.mem_cons_of_mem t hu))
      (fun u hu => hread u (List.mem_cons_of_mem t hu))
    have hends : ¬ t.EndsBlock := hblock t List.mem_cons_self
    rw [gathered_cons, List.map_append, ← hrest]
    unfold EndsBlock at hends
    cases hc : t.read with
    | error e =>
      have hok := hread t List.mem_cons_self
      rw [hc] at hok
      cases hok
    | ok c =>
      cases c with
      | transaction tc =>
        cases tc with
        | exec => exact absurd (.inl hc) hends
        | discard => exact absurd (.inr hc) hends
        | multi =>
          have hmulti : t.isMulti = true := by rw [isMulti, hc]
          rw [List.filter_cons_of_neg (by rw [hmulti]; decide)]
          rfl
      | _ =>
        have hmulti : t.isMulti = false := by rw [isMulti, hc]
        rw [List.filter_cons_of_pos (by rw [hmulti]; rfl), List.map_cons, hc]
        rfl

end Timed

namespace Keyspace

@[simp] theorem advance_advance (ks : Keyspace) (m n : Nat) :
    (ks.advance m).advance n = ks.advance (m + n) := by
  simp only [advance, Nat.add_assoc]

end Keyspace

namespace Session
open Timed

variable [Glob.Matcher]

/-- Handles requests in order, while no other session acts. -/
def handleAll (s : Session) (ks : Keyspace) : List Timed → List Step × Session × Keyspace
  | [] => ([], s, ks)
  | t :: rest =>
    let (step, s, ks) := s.handle (ks.advance t.gap) t.request
    let (steps, s, ks) := handleAll s ks rest
    (step :: steps, s, ks)

theorem handleAll_append (s : Session) (ks : Keyspace) (first last : List Timed) :
    s.handleAll ks (first ++ last) =
      ((s.handleAll ks first).1 ++
          ((s.handleAll ks first).2.1.handleAll (s.handleAll ks first).2.2 last).1,
        ((s.handleAll ks first).2.1.handleAll (s.handleAll ks first).2.2 last).2) := by
  induction first generalizing s ks with
  | nil => rfl
  | cons t rest ih => simp only [List.cons_append, handleAll, ih]

theorem handleAll_append_one {s₁ s₂ : Session} {ks₁ ks₂ : Keyspace} {first : List Timed}
    {t : Timed} {steps : List Step} {step : Step} {s : Session} {ks : Keyspace}
    (hfirst : s.handleAll ks first = (steps, s₁, ks₁))
    (ht : s₁.handle (ks₁.advance t.gap) t.request = (step, s₂, ks₂)) :
    s.handleAll ks (first ++ [t]) = (steps ++ [step], s₂, ks₂) := by
  rw [handleAll_append, hfirst]
  simp only [handleAll, ht]

omit [Glob.Matcher] in
theorem advance_elapsed_append (ks : Keyspace) (first : List Timed) (t : Timed) :
    (ks.advance (elapsed first)).advance t.gap = ks.advance (elapsed (first ++ [t])) := by
  rw [Keyspace.advance_advance, elapsed_append, elapsed_cons]
  rfl

def gathering (s : Session) (queue : List Command) (aborted : Bool) : Session :=
  { s with state := .queuing queue aborted }

variable (s : Session) (queue : List Command) (aborted : Bool)

theorem handle_gathering (ks : Keyspace) (t : Timed) :
    (s.gathering queue aborted).handle ks t.request =
      (.reply ((s.gathering queue aborted).handleQueuing ks queue aborted t.read).1,
        ((s.gathering queue aborted).handleQueuing ks queue aborted t.read).2) := rfl

theorem handleQueuing_command (ks : Keyspace) {c : Command} (hc : ∀ tc, c ≠ .transaction tc) :
    (s.gathering queue aborted).handleQueuing ks queue aborted (.ok c) =
      if s.maxQueued ≤ queue.length then
        (.error (TransactionError.queueFull s.maxQueued).message, { s with state := .normal }, ks)
      else
        (.simple "QUEUED", s.gathering (queue ++ [c]) aborted, ks) := by
  cases c with
  | transaction tc => exact absurd rfl (hc tc)
  | _ => rfl

/-- A request that does not end the transaction and finds room is gathered, and nothing else. -/
theorem handle_gather (ks : Keyspace) {t : Timed} (hblock : ¬ t.EndsBlock)
    (hroom : (gathered? t.read).isSome → queue.length < s.maxQueued) :
    (s.gathering queue aborted).handle ks t.request = (.reply (gatherReply t.read),
      s.gathering (queue ++ (gathered? t.read).toList) (aborted || !t.read.isOk), ks) := by
  rw [handle_gathering]
  unfold Timed.EndsBlock at hblock
  cases hread : t.read with
  | error e =>
    have haborted : (aborted || !(Except.error e : Except RequestError Command).isOk) = true :=
      Bool.or_true aborted
    rw [haborted, show (gathered? (.error e)).toList = [] from rfl, List.append_nil]
    rfl
  | ok c =>
    have haborted : (aborted || !(Except.ok c : Except RequestError Command).isOk) = aborted :=
      Bool.or_false aborted
    rw [haborted]
    by_cases hc : ∃ tc, c = .transaction tc
    · obtain ⟨tc, rfl⟩ := hc
      cases tc with
      | exec => exact absurd (.inl hread) hblock
      | discard => exact absurd (.inr hread) hblock
      | multi =>
        rw [show (gathered? (.ok (.transaction .multi))).toList = [] from rfl, List.append_nil]
        rfl
    · have hcommand : ∀ tc, c ≠ .transaction tc := fun tc heq => hc ⟨tc, heq⟩
      have hgathered : gathered? (.ok c) = some c := gathered?_eq_some_iff.2 ⟨rfl, hcommand⟩
      have hlt : queue.length < s.maxQueued := hroom (by rw [hread, hgathered]; rfl)
      rw [handleQueuing_command s queue aborted ks hcommand, if_neg (Nat.not_le.2 hlt), hgathered,
        gatherReply_command hcommand, Option.toList_some]

/-- A command for which there is no room ends the transaction. -/
theorem handle_full (ks : Keyspace) {t : Timed} (hgathered : (gathered? t.read).isSome)
    (hfull : s.maxQueued ≤ queue.length) :
    (s.gathering queue aborted).handle ks t.request =
      (.reply (.error (TransactionError.queueFull s.maxQueued).message),
        { s with state := .normal }, ks) := by
  obtain ⟨c, hc⟩ := Option.isSome_iff_exists.1 hgathered
  obtain ⟨hread, hcommand⟩ := gathered?_eq_some_iff.1 hc
  rw [handle_gathering, hread, handleQueuing_command s queue aborted ks hcommand, if_pos hfull]

/-- Requests that do not end the transaction are gathered in order while there is room. -/
theorem handleAll_gather (ks : Keyspace) {block : List Timed}
    (hblock : ∀ t ∈ block, ¬ t.EndsBlock)
    (hroom : queue.length + (gathered block).length ≤ s.maxQueued) :
    (s.gathering queue aborted).handleAll ks block =
      (block.map fun t => .reply (gatherReply t.read),
        s.gathering (queue ++ gathered block) (aborted || block.any fun t => !t.read.isOk),
        ks.advance (elapsed block)) := by
  induction block generalizing ks queue aborted with
  | nil =>
    rw [show gathered [] = [] from rfl, List.append_nil, List.any_nil, Bool.or_false]
    rfl
  | cons t rest ih =>
    have hlength : (gathered (t :: rest)).length =
        (gathered? t.read).toList.length + (gathered rest).length := by
      rw [gathered_cons, List.length_append]
    have hstep := s.handle_gather queue aborted (ks.advance t.gap)
      (hblock t List.mem_cons_self) fun hsome => by
        obtain ⟨c, hc⟩ := Option.isSome_iff_exists.1 hsome
        rw [hc, Option.toList_some, List.length_singleton] at hlength
        omega
    have hrest := ih (queue ++ (gathered? t.read).toList) (aborted || !t.read.isOk)
      (ks.advance t.gap) (fun u hu => hblock u (List.mem_cons_of_mem t hu)) (by
        rw [List.length_append]
        omega)
    simp only [handleAll, hstep, hrest, gathered_cons, List.map_cons, List.any_cons,
      List.append_assoc, Bool.or_assoc, Keyspace.advance_advance, elapsed_cons]

theorem handle_multi {s : Session} (hs : s.state = .normal) (ks : Keyspace) {t : Timed}
    (ht : t.read = .ok (.transaction .multi)) :
    s.handle ks t.request = (.reply .ok, s.gathering [] false, ks) := by
  unfold Session.handle
  rw [hs, show Command.ofFrame t.request = .ok (.transaction .multi) from ht]
  rfl

/-- What a transaction has gathered and replied before EXEC, with room for all commands. -/
theorem handleAll_gathered {s : Session} (ks : Keyspace) {multi : Timed} {block : List Timed}
    (hs : s.state = .normal) (hmulti : multi.read = .ok (.transaction .multi))
    (hblock : ∀ t ∈ block, ¬ t.EndsBlock) (hroom : (gathered block).length ≤ s.maxQueued) :
    s.handleAll ks (multi :: block) =
      (.reply .ok :: block.map fun t => .reply (gatherReply t.read),
        s.gathering (gathered block) (block.any fun t => !t.read.isOk),
        ks.advance (elapsed (multi :: block))) := by
  have hgather := s.handleAll_gather [] false (ks.advance multi.gap) hblock (by simpa using hroom)
  simp only [handleAll, handle_multi hs _ hmulti, hgather, List.nil_append, Bool.false_or,
    Keyspace.advance_advance, elapsed_cons]

theorem handle_exec (ks : Keyspace) {t : Timed} (ht : t.read = .ok (.transaction .exec)) :
    (s.gathering queue false).handle ks t.request =
      (.reply (.array (runAll ks s.client queue).1),
        { s with state := .normal, client := (ranOn (ks, s.client) queue).2 },
        (ranOn (ks, s.client) queue).1) := by
  rw [handle_gathering, ht, ← runAll_snd]
  rfl

theorem handle_exec_aborted (ks : Keyspace) {t : Timed} (ht : t.read = .ok (.transaction .exec)) :
    (s.gathering queue true).handle ks t.request =
      (.reply (.error TransactionError.aborted.message), { s with state := .normal }, ks) := by
  rw [handle_gathering, ht]
  rfl

end Session

end RespStore
