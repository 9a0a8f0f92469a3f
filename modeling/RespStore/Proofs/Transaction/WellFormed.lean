import Mathlib.Data.List.Induction
import RespStore.Proofs.Access.Commands
import RespStore.Proofs.Interleaving.OwnRequests
import RespStore.Proofs.Transaction

/-! Sessions stay well formed, whatever they are sent and whatever keyspace they find at each
request. -/
namespace RespStore

/-! Commands that succeed never reply with an error, and the errors of commands that fail on what is
stored are told from those of transactions by their messages. -/

section Errors

def Frame.Plain : Frame → Prop
  | .error _ => False
  | _ => True

def Outcome.Plain (outcome : Outcome) : Prop := ∀ reply, outcome.1 = .ok reply → reply.Plain

theorem Outcome.Plain.ok {reply : Frame} (h : reply.Plain) (ks : Keyspace) :
    Outcome.Plain (.ok reply, ks) := by
  intro found hfound
  cases hfound
  exact h

theorem Outcome.Plain.error (e : StoreError) (ks : Keyspace) : Outcome.Plain (.error e, ks) := by
  intro found hfound
  cases hfound

theorem answer_plain {α : Type} {f : α → Frame} (hf : ∀ a, (f a).Plain)
    (r : Except StoreError α × Keyspace) : (answer f r).Plain := by
  intro reply h
  obtain ⟨a, -, rfl⟩ := map_eq_ok_iff.1 h
  exact hf a

theorem Frame.plain_optionalBulk (data : Option Bytes) : (optionalBulk data).Plain := by
  cases data <;> trivial

theorem KeyCommand.exec_plain [Glob.Matcher] (ks : Keyspace) (c : KeyCommand) :
    (c.exec ks).1.Plain := by
  cases c with
  | pttl key | ttl key =>
    show (ttlReply _ _).Plain
    unfold ttlReply
    split <;> trivial
  | _ => trivial

theorem StringCommand.setReply_plain (get holds : Bool) (old : Option Bytes) :
    (if get then Frame.optionalBulk old else if holds then .ok else .nullBulk : Frame).Plain := by
  split
  · exact Frame.plain_optionalBulk old
  · split <;> trivial

theorem StringCommand.setAfter_plain (key value : Bytes) (o : SetOptions)
    (old : Except StoreError (Option Bytes)) (ks : Keyspace) :
    (setAfter key value o old ks).Plain := by
  cases old with
  | error e => exact .error e ks
  | ok old => exact .ok (setReply_plain o.get _ old) _

theorem StringCommand.exec_plain (ks : Keyspace) (c : StringCommand) : (c.exec ks).Plain := by
  cases c with
  | decrby key decrement =>
    rw [exec]
    split
    · exact .error _ ks
    · exact answer_plain (fun _ => by trivial) _
  | get key | getdel key | getset key value => exact answer_plain Frame.plain_optionalBulk _
  | set key value options =>
    rw [exec, setWith_eq]
    exact setAfter_plain key value options _ _
  | mget keys | mset bindings | psetex key ttl value | setex key ttl value | setnx key value =>
    exact .ok (by trivial) _
  | _ => exact answer_plain (fun _ => by trivial) _

theorem ListCommand.popFirst_plain (ks : Keyspace) (keys : List Bytes) :
    (popFirst ks keys).Plain := by
  induction keys generalizing ks with
  | nil => exact .ok (by trivial) ks
  | cons key rest ih =>
    rw [popFirst_cons]
    unfold afterPop
    split
    · exact .error _ _
    · exact .ok (by trivial) _
    · exact ih _

theorem ListCommand.exec_plain (ks : Keyspace) (c : ListCommand) : (c.exec ks).Plain := by
  have hpop (count : Option Nat) (popped : Option (List Bytes)) :
      (popReply count popped).Plain := by
    unfold popReply
    split
    · trivial
    · trivial
    · trivial
    · exact Frame.plain_optionalBulk _
  cases c with
  | brpop keys timeout => exact popFirst_plain ks keys
  | lpop key count | rpop key count => exact answer_plain (hpop count) _
  | _ => exact answer_plain (fun _ => by trivial) _

theorem SetCommand.exec_plain [Glob.Matcher] (ks : Keyspace) (c : SetCommand) :
    (c.exec ks).Plain := by
  cases c <;> exact answer_plain (fun _ => by trivial) _

theorem SortedSetCommand.exec_plain (ks : Keyspace) (c : SortedSetCommand) :
    (c.exec ks).Plain := by
  cases c with
  | zscore key member => exact answer_plain (fun _ => Frame.plain_optionalBulk _) _
  | _ => exact answer_plain (fun _ => by trivial) _

theorem HashCommand.exec_plain (ks : Keyspace) (c : HashCommand) : (c.exec ks).Plain := by
  cases c with
  | hget key field => exact answer_plain (fun _ => Frame.plain_optionalBulk _) _
  | _ => exact answer_plain (fun _ => by trivial) _

theorem ServerCommand.exec_plain (ks : Keyspace) (client : Client) (c : ServerCommand) :
    (c.exec ks client).1.Plain := by
  cases c with
  | clientGetName => exact Frame.plain_optionalBulk _
  | ping payload => cases payload <;> trivial
  | _ => trivial

theorem Command.exec_plain [Glob.Matcher] (ks : Keyspace) (client : Client) {c : Command}
    {reply : Frame} (h : (c.exec ks client).1 = .ok reply) : reply.Plain := by
  cases c with
  | keys c =>
    cases h
    exact c.exec_plain ks
  | strings c => exact c.exec_plain ks reply (mapError_eq_ok_iff.1 h)
  | lists c => exact c.exec_plain ks reply (mapError_eq_ok_iff.1 h)
  | sets c => exact c.exec_plain ks reply (mapError_eq_ok_iff.1 h)
  | sortedSets c => exact c.exec_plain ks reply (mapError_eq_ok_iff.1 h)
  | hashes c => exact c.exec_plain ks reply (mapError_eq_ok_iff.1 h)
  | server c =>
    cases h
    exact c.exec_plain ks client
  | transaction c => cases h

/-- Only commands of transactions fail because of a transaction. -/
theorem Command.error_of_exec [Glob.Matcher] {ks : Keyspace} {client : Client} {c : Command}
    (hc : ∀ tc, c ≠ .transaction tc) {cause : CommandError}
    (h : (c.exec ks client).1 = .error cause) : ∃ e, cause = .store e := by
  have hstore {outcome : Outcome} (h : outcome.1.mapError CommandError.store = .error cause) :
      ∃ e, cause = .store e := by
    obtain ⟨e, -, rfl⟩ := mapError_eq_error_iff.1 h
    exact ⟨e, rfl⟩
  cases c with
  | keys c => cases h
  | strings c => exact hstore h
  | lists c => exact hstore h
  | sets c => exact hstore h
  | sortedSets c => exact hstore h
  | hashes c => exact hstore h
  | server c => cases h
  | transaction tc => exact absurd rfl (hc tc)

theorem getElem?_toList_append (before after : String) {i : Nat}
    (h : i < before.toList.length) : (before ++ after).toList[i]? = before.toList[i]? := by
  rw [String.toList_append, List.getElem?_append_left h]

/-- Told by its fifth character, whatever number it names. -/
theorem StoreError.message_ne_queueFull (e : StoreError) (limit : Nat) :
    e.message ≠ (TransactionError.queueFull limit).message := by
  intro h
  have hlength : 4 < "ERR transaction discarded, more than ".toList.length := by decide +kernel
  have hchar : "ERR transaction discarded, more than ".toList[4]? = some 't' := by decide +kernel
  have hsplit : (TransactionError.queueFull limit).message =
      "ERR transaction discarded, more than " ++ (toString limit ++ " commands queued") :=
    String.append_assoc
  have hfifth : e.message.toList[4]? = some 't' := by
    rw [h, hsplit]
    exact (getElem?_toList_append _ _ hlength).trans hchar
  cases e <;> revert hfifth <;> decide +kernel

theorem StoreError.message_ne (e : StoreError) (e' : TransactionError) :
    e.message ≠ e'.message := by
  cases e' with
  | queueFull limit => exact e.message_ne_queueFull limit
  | _ => cases e <;> decide +kernel

/-- No command that is not of a transaction is replied to with a transaction's error. -/
theorem Session.run_ne_transactionError [Glob.Matcher] {c : Command}
    (hc : ∀ tc, c ≠ .transaction tc) (ks : Keyspace) (client : Client) (e : TransactionError) :
    (run ks client c).1 ≠ .error e.message := by
  intro h
  have hreply : CommandError.replyTo (c.exec (countCommand ks) client).1 = .error e.message := by
    unfold run at h
    rwa [attempt_eq] at h
  cases hexec : (c.exec (countCommand ks) client).1 with
  | ok reply =>
    rw [hexec] at hreply
    have hplain : reply.Plain := c.exec_plain _ _ hexec
    rw [show reply = .error e.message from hreply] at hplain
    exact hplain
  | error cause =>
    rw [hexec] at hreply
    have hmessage : cause.message = e.message := Frame.error.inj hreply
    obtain ⟨stored, rfl⟩ := Command.error_of_exec hc hexec
    exact stored.message_ne e hmessage

end Errors

namespace Session

theorem queued_of_normal {s : Session} (h : s.state = .normal) : s.queued = [] := by
  rw [queued, h]

theorem queued_of_queuing {s : Session} {queue : List Command} {aborted : Bool}
    (h : s.state = .queuing queue aborted) : s.queued = queue := by
  rw [queued, h]

end Session

/-- A request that a session handles over some keyspace. -/
structure Visit where
  session : Session
  keyspace : Keyspace
  request : Frame

namespace Visit

def timed (v : Visit) : Timed := ⟨0, v.request⟩

section
variable [Glob.Matcher]

def step (v : Visit) : Step := (v.session.handle v.keyspace v.request).1

def after (v : Visit) : Session := (v.session.handle v.keyspace v.request).2.1

def left (v : Visit) : Keyspace := (v.session.handle v.keyspace v.request).2.2

def Opens (v : Visit) : Prop := Command.ofFrame v.request = .ok (.transaction .multi)

/-- What is read is a command to gather, and the transaction has no room for it. -/
def TooMany (v : Visit) : Prop :=
  v.session.inTransaction = true ∧ (Timed.gathered? v.timed.read).isSome ∧
    v.session.maxQueued ≤ v.session.queued.length

/-- No transaction is open after this. -/
def Closes (v : Visit) : Prop := v.timed.EndsBlock ∨ v.TooMany

/-- There was a MULTI, and nothing since that closes the transaction. -/
def OpenAfter (visits : List Visit) : Prop :=
  Since (fun _ v => v.Opens) (fun v => ¬ v.Closes) visits

/-- What becomes of the session. -/
inductive Course (v : Visit) : Prop
  | opens (hbefore : v.session.state = .normal) (hread : v.Opens)
      (hafter : v.after.state = .queuing [] false) (hleft : v.left = v.keyspace)
  | passes (hbefore : v.session.state = .normal) (hread : ¬ v.Opens)
      (hafter : v.after.state = .normal)
  | closes {queue : List Command} {aborted : Bool}
      (hbefore : v.session.state = .queuing queue aborted) (hcloses : v.Closes)
      (hafter : v.after.state = .normal)
      (hleft : Command.ofFrame v.request ≠ .ok (.transaction .exec) → v.left = v.keyspace)
  | gathers {queue : List Command} {aborted aborted' : Bool}
      (hbefore : v.session.state = .queuing queue aborted) (hcloses : ¬ v.Closes)
      (hafter : v.after.state =
        .queuing (queue ++ (Timed.gathered? v.timed.read).toList) aborted')
      (hleft : v.left = v.keyspace)

theorem state_handleNormal {s : Session} (hs : s.state = .normal) (ks : Keyspace)
    {read : Except RequestError Command} (hread : read ≠ .ok (.transaction .multi)) :
    (s.handleNormal ks read).2.1.state = .normal := by
  unfold Session.handleNormal
  split
  · exact hs
  · exact absurd rfl hread
  · exact hs
  · exact hs

section Courses

variable (s : Session) (ks : Keyspace) (queue : List Command) (aborted : Bool) {t : Timed}

theorem handle_discard (ht : t.read = .ok (.transaction .discard)) :
    (s.gathering queue aborted).handle ks t.request =
      (.reply .ok, { s with state := .normal }, ks) := by
  rw [Session.handle_gathering, ht]
  rfl

theorem state_handle_exec (ht : t.read = .ok (.transaction .exec)) :
    ((s.gathering queue aborted).handle ks t.request).2.1.state = .normal := by
  cases aborted with
  | true => rw [s.handle_exec_aborted queue ks ht]
  | false => rw [s.handle_exec queue ks ht]

end Courses

theorem course_of_normal {v : Visit} (hnormal : v.session.state = .normal) : v.Course := by
  by_cases hopens : v.Opens
  · have hhandle := Session.handle_multi (t := v.timed) hnormal v.keyspace hopens
    apply Course.opens hnormal hopens
    · exact congrArg (·.2.1.state) hhandle
    · exact congrArg (·.2.2) hhandle
  · have hhandle : v.session.handle v.keyspace v.request =
        v.session.handleNormal v.keyspace (Command.ofFrame v.request) := by
      unfold Session.handle
      rw [hnormal]
    apply Course.passes hnormal hopens
    rw [after, hhandle]
    exact state_handleNormal hnormal v.keyspace hopens

omit [Glob.Matcher] in
theorem room_of_not_closes {v : Visit} {queue : List Command} {aborted : Bool}
    (hqueuing : v.session.state = .queuing queue aborted) (hcloses : ¬ v.Closes)
    (hgathered : (Timed.gathered? v.timed.read).isSome) : queue.length < v.session.maxQueued := by
  by_contra hfull
  have htransaction : v.session.inTransaction = true := by rw [Session.inTransaction, hqueuing]
  have hlength : v.session.maxQueued ≤ v.session.queued.length := by
    rw [Session.queued_of_queuing hqueuing]
    exact Nat.le_of_not_lt hfull
  exact hcloses (.inr ⟨htransaction, hgathered, hlength⟩)

/-- In a transaction, by cases on what closes it. -/
theorem course_of_queuing {v : Visit} {queue : List Command} {aborted : Bool}
    (hqueuing : v.session.state = .queuing queue aborted) : v.Course := by
  have hsession : v.session = v.session.gathering queue aborted := by
    rw [Session.gathering, ← hqueuing]
  have hhandled : v.session.handle v.keyspace v.request =
      (v.session.gathering queue aborted).handle v.keyspace v.timed.request := by
    rw [← hsession]
    rfl
  by_cases hcloses : v.Closes
  · rcases hcloses with (hexec | hdiscard) | ⟨htransaction, hgathered, hfull⟩
    · have hstate := state_handle_exec v.session v.keyspace queue aborted hexec
      rw [← hhandled] at hstate
      exact .closes hqueuing (.inl (.inl hexec)) hstate fun hread => absurd hexec hread
    · have hhandle := handle_discard v.session v.keyspace queue aborted hdiscard
      rw [← hhandled] at hhandle
      apply Course.closes hqueuing (.inl (.inr hdiscard))
      · exact congrArg (·.2.1.state) hhandle
      · exact fun _ => congrArg (·.2.2) hhandle
    · -- The command too many is not executed either.
      have hlength : v.session.maxQueued ≤ queue.length := by
        rwa [Session.queued_of_queuing hqueuing] at hfull
      have hhandle := v.session.handle_full queue aborted v.keyspace hgathered hlength
      rw [← hhandled] at hhandle
      apply Course.closes hqueuing (.inr ⟨htransaction, hgathered, hfull⟩)
      · exact congrArg (·.2.1.state) hhandle
      · exact fun _ => congrArg (·.2.2) hhandle
  · have hends : ¬ v.timed.EndsBlock := fun hends => hcloses (.inl hends)
    have hhandle := v.session.handle_gather queue aborted v.keyspace hends
      (room_of_not_closes hqueuing hcloses)
    rw [← hhandled] at hhandle
    apply Course.gathers hqueuing hcloses
    · exact congrArg (·.2.1.state) hhandle
    · exact congrArg (·.2.2) hhandle

end

theorem course [Glob.Matcher] (v : Visit) : v.Course := by
  cases hstate : v.session.state with
  | normal => exact course_of_normal hstate
  | queuing queue aborted => exact course_of_queuing hstate

theorem not_opens_of_closes {v : Visit} (h : v.Closes) : ¬ v.Opens := by
  intro hopens
  have hread : v.timed.read = .ok (.transaction .multi) := hopens
  rcases h with (hexec | hdiscard) | ⟨-, hgathered, -⟩
  · rw [hread] at hexec
    cases hexec
  · rw [hread] at hdiscard
    cases hdiscard
  · rw [hread] at hgathered
    cases hgathered

theorem inTransaction_after [Glob.Matcher] (v : Visit) : v.after.inTransaction = true ↔
    v.Opens ∨ v.session.inTransaction = true ∧ ¬ v.Closes := by
  unfold Session.inTransaction
  cases v.course with
  | opens hbefore hread hafter => simp [hafter, hread]
  | passes hbefore hread hafter => simp [hafter, hbefore, hread]
  | closes hbefore hcloses hafter => simp [hafter, hcloses, not_opens_of_closes hcloses]
  | gathers hbefore hcloses hafter => simp [hafter, hbefore, hcloses]

end Visit

namespace Session

/-- The queue of an open transaction has room for what it holds, and that is nothing that controls a
transaction. -/
structure WellFormed (s : Session) : Prop where
  bounded : s.queued.length ≤ s.maxQueued
  commands : ∀ c ∈ s.queued, ∀ tc, c ≠ .transaction tc

theorem wellFormed_of_queued_eq_nil {s : Session} (h : s.queued = []) : s.WellFormed := by
  constructor
  · simp [h]
  · simp [h]

variable [Glob.Matcher]

theorem maxQueued_handleQueuing (s : Session) (ks : Keyspace) (queue : List Command)
    (aborted : Bool) (read : Except RequestError Command) :
    (s.handleQueuing ks queue aborted read).2.1.maxQueued = s.maxQueued := by
  unfold handleQueuing
  split
  · rfl
  · unfold execute
    split <;> rfl
  · rfl
  · rfl
  · split <;> rfl

theorem maxQueued_handle (s : Session) (ks : Keyspace) (request : Frame) :
    (s.handle ks request).2.1.maxQueued = s.maxQueued := by
  unfold handle
  split
  · unfold handleNormal
    split <;> rfl
  · exact maxQueued_handleQueuing s ks _ _ _

/-- The step: what is gathered finds room, and controls no transaction. -/
theorem WellFormed.after {v : Visit} (h : v.session.WellFormed) : v.after.WellFormed := by
  cases v.course with
  | opens hbefore hread hafter => exact wellFormed_of_queued_eq_nil (queued_of_queuing hafter)
  | passes hbefore hread hafter => exact wellFormed_of_queued_eq_nil (queued_of_normal hafter)
  | closes hbefore hcloses hafter => exact wellFormed_of_queued_eq_nil (queued_of_normal hafter)
  | @gathers queue aborted aborted' hbefore hcloses hafter =>
    have hqueue : v.session.queued = queue := queued_of_queuing hbefore
    have hmax : v.after.maxQueued = v.session.maxQueued :=
      maxQueued_handle v.session v.keyspace v.request
    obtain ⟨hbounded, hcommands⟩ := h
    constructor
    · have hroom := Visit.room_of_not_closes hbefore hcloses
      rw [hqueue] at hbounded
      rw [queued_of_queuing hafter, hmax, List.length_append]
      cases hgathered : Timed.gathered? v.timed.read with
      | none => simpa using hbounded
      | some c =>
        rw [hgathered] at hroom
        have hlt : queue.length < v.session.maxQueued := hroom rfl
        rw [Option.toList_some, List.length_singleton]
        exact hlt
    · intro c hc
      rw [queued_of_queuing hafter, List.mem_append] at hc
      rcases hc with hc | hc
      · exact hcommands c (hqueue ▸ hc)
      · exact (Timed.gathered?_eq_some_iff.1 (Option.mem_toList.1 hc)).2

def visits (s : Session) : List (Keyspace × Frame) → List Visit
  | [] => []
  | (ks, request) :: rest => ⟨s, ks, request⟩ :: visits (s.handle ks request).2.1 rest

def through (s : Session) (inputs : List (Keyspace × Frame)) : Session :=
  inputs.foldl (fun s (ks, request) => (s.handle ks request).2.1) s

theorem visits_concat (s : Session) (inputs : List (Keyspace × Frame)) (ks : Keyspace)
    (request : Frame) :
    s.visits (inputs ++ [(ks, request)]) =
      s.visits inputs ++ [⟨s.through inputs, ks, request⟩] := by
  induction inputs generalizing s with
  | nil => rfl
  | cons input rest ih => exact congrArg (_ :: ·) (ih _)

theorem through_concat (s : Session) (inputs : List (Keyspace × Frame)) (ks : Keyspace)
    (request : Frame) :
    s.through (inputs ++ [(ks, request)]) = ((s.through inputs).handle ks request).2.1 := by
  simp [through]

theorem maxQueued_through (s : Session) (inputs : List (Keyspace × Frame)) :
    (s.through inputs).maxQueued = s.maxQueued := by
  induction inputs generalizing s with
  | nil => rfl
  | cons input rest ih => exact (ih _).trans (maxQueued_handle s input.1 input.2)

theorem WellFormed.through {s : Session} (h : s.WellFormed) (inputs : List (Keyspace × Frame)) :
    (s.through inputs).WellFormed := by
  induction inputs generalizing s with
  | nil => exact h
  | cons input rest ih => exact ih (WellFormed.after (v := ⟨s, input.1, input.2⟩) h)

/-- By induction on the requests, from the last one. -/
theorem inTransaction_through_iff {s : Session} (hs : s.state = .normal)
    (inputs : List (Keyspace × Frame)) :
    (s.through inputs).inTransaction = true ↔ Visit.OpenAfter (s.visits inputs) := by
  induction inputs using List.reverseRecOn with
  | nil =>
    have hclosed : s.inTransaction = false := by rw [inTransaction, hs]
    exact iff_of_false (by simp [through, hclosed]) not_since_nil
  | append_singleton inputs input ih =>
    obtain ⟨ks, request⟩ := input
    have hafter := Visit.inTransaction_after ⟨s.through inputs, ks, request⟩
    rw [through_concat, visits_concat, Visit.OpenAfter, since_concat, ← Visit.OpenAfter, ← ih]
    exact hafter

/-- What EXEC replies with are as many replies as there is room for commands, and none of them is an
error of a transaction. -/
theorem WellFormed.replies_of_exec {s : Session} (h : s.WellFormed) {ks : Keyspace}
    {request : Frame} (hread : Command.ofFrame request = .ok (.transaction .exec))
    {replies : List Frame} (hreply : (s.handle ks request).1 = .reply (.array replies)) :
    replies.length ≤ s.maxQueued ∧ ∀ e : TransactionError, .error e.message ∉ replies := by
  have ht : (⟨0, request⟩ : Timed).read = .ok (.transaction .exec) := hread
  cases hstate : s.state with
  | normal =>
    have hrefused : (s.handle ks request).1 =
        .reply (.error TransactionError.execWithoutMulti.message) := by
      unfold handle
      rw [hstate, hread]
      rfl
    rw [hrefused] at hreply
    cases hreply
  | queuing queue aborted =>
    have hsession : s = s.gathering queue aborted := by rw [gathering, ← hstate]
    obtain ⟨hbounded, hcommands⟩ := h
    rw [queued_of_queuing hstate] at hbounded hcommands
    cases aborted with
    | true =>
      rw [hsession, handle_exec_aborted s queue ks ht] at hreply
      cases hreply
    | false =>
      rw [hsession, handle_exec s queue ks ht] at hreply
      cases hreply
      constructor
      · rwa [length_runAll]
      · intro e he
        obtain ⟨i, hi⟩ := List.mem_iff_getElem?.1 he
        rw [getElem?_runAll] at hi
        -- Each slot is the reply to a command that was gathered, so to none of a transaction.
        obtain ⟨c, hc, hslot⟩ := Option.map_eq_some_iff.1 hi
        exact run_ne_transactionError (hcommands c (List.mem_of_getElem? hc)) _ _ e hslot

/-- In a transaction only EXEC changes the keyspace. -/
theorem keyspace_handle {s : Session} (h : s.inTransaction = true) (ks : Keyspace) {request : Frame}
    (hread : Command.ofFrame request ≠ .ok (.transaction .exec)) :
    (s.handle ks request).2.2 = ks := by
  have hcourse := Visit.course ⟨s, ks, request⟩
  have hnormal : s.state ≠ .normal := by
    intro hnormal
    rw [inTransaction, hnormal] at h
    cases h
  cases hcourse with
  | opens hbefore => exact absurd hbefore hnormal
  | passes hbefore => exact absurd hbefore hnormal
  | closes hbefore hcloses hafter hleft => exact hleft hread
  | gathers hbefore hcloses hafter hleft => exact hleft

end Session

namespace Transaction
open Session

/-- Whatever requests a new session has handled, over whatever keyspaces: its queue is within bounds
and holds no command that controls a transaction, and it is in a transaction if there was a MULTI
and no EXEC, no DISCARD and no command too many since. At the next request, whichever it is: a
session in a transaction leaves the keyspace as it is, unless the request is EXEC; it comes to a
wait only outside transactions, for a BRPOP; and the replies that EXEC lists are no more than the
queue may hold commands, with none of the errors of transactions among them. -/
theorem queued_transactions_stay_well_formed [Glob.Matcher] (maxQueued number : Nat)
    (inputs : List (Keyspace × Frame)) :
    let fresh := Session.initial number maxQueued
    let s := fresh.through inputs
    s.queued.length ≤ maxQueued ∧
    (∀ c ∈ s.queued, ∀ tc, c ≠ .transaction tc) ∧
    (s.inTransaction = true ↔ Visit.OpenAfter (fresh.visits inputs)) ∧
    ∀ (ks : Keyspace) (request : Frame),
      let v : Visit := ⟨s, ks, request⟩
      let read := Command.ofFrame request
      (s.inTransaction = true → read ≠ .ok (.transaction .exec) → v.left = ks) ∧
      (∀ keys timeout, v.step = .block keys timeout →
        s.state = .normal ∧ read = .ok (.lists (.brpop keys timeout))) ∧
      (∀ replies, read = .ok (.transaction .exec) → v.step = .reply (.array replies) →
        replies.length ≤ maxQueued ∧ ∀ e : TransactionError, .error e.message ∉ replies) := by
  intro fresh s
  have hfresh : fresh.WellFormed := wellFormed_of_queued_eq_nil rfl
  have hs : s.WellFormed := hfresh.through inputs
  have hmax : s.maxQueued = maxQueued := fresh.maxQueued_through inputs
  have hbounded := hs.bounded
  rw [hmax] at hbounded
  refine ⟨hbounded, hs.commands, inTransaction_through_iff rfl inputs, fun ks request => ?_⟩
  refine ⟨fun htransaction hread => keyspace_handle htransaction ks hread, ?_, ?_⟩
  · intro keys timeout hblock
    obtain ⟨hnormal, hread, -⟩ := handle_block (Prod.ext hblock rfl)
    exact ⟨hnormal, hread⟩
  · intro replies hread hreply
    have hreplies := hs.replies_of_exec hread hreply
    rwa [hmax] at hreplies

/-- Room for two commands, the second of which fails: a third one ends the transaction and leaves
the keyspace alone, and EXEC lists the failure. -/
theorem transaction_with_room_for_two :
    let request (words : List String) : Frame := .bulkArray (words.map Bytes.ofString)
    let fresh := Session.initial 1 2
    let input (words : List String) : Keyspace × Frame := ({}, request words)
    let inputs := [input ["MULTI"], input ["SET", "a", "x"], input ["INCR", "a"]]
    let s := fresh.through inputs
    let third := request ["BRPOP", "a", "0"]
    let longer := inputs ++ [input ["BRPOP", "a", "0"]]
    s.queued.length ≤ 2 ∧ s.inTransaction = true ∧ Visit.OpenAfter (fresh.visits inputs) ∧
      Command.ofFrame third ≠ .ok (.transaction .exec) ∧ Visit.left ⟨s, {}, third⟩ = {} ∧
      ¬ Visit.OpenAfter (fresh.visits longer) ∧
      Visit.step ⟨fresh, {}, third⟩ = .block [[97]] 0 ∧ fresh.state = .normal ∧
      Command.ofFrame third = .ok (.lists (.brpop [[97]] 0)) ∧
      Command.ofFrame (request ["EXEC"]) = .ok (.transaction .exec) ∧
      ∃ replies, Visit.step ⟨s, {}, request ["EXEC"]⟩ = .reply (.array replies) ∧
        replies = [.ok, .error StoreError.notAnInteger.message] ∧ replies.length ≤ 2 ∧
        ∀ e : TransactionError, .error e.message ∉ replies := by
  intro request fresh input inputs s third longer
  have hopen : s.inTransaction = true := by decide +kernel
  have hthird : Command.ofFrame third ≠ .ok (.transaction .exec) := by decide +kernel
  have hblock : Visit.step ⟨fresh, {}, third⟩ = .block [[97]] 0 := by decide +kernel
  have hexec : Command.ofFrame (request ["EXEC"]) = .ok (.transaction .exec) := by decide +kernel
  have hreply : Visit.step ⟨s, {}, request ["EXEC"]⟩ =
      .reply (.array [.ok, .error StoreError.notAnInteger.message]) := by
    decide +kernel
  have hclosed : (fresh.through longer).inTransaction ≠ true := by decide +kernel
  obtain ⟨hbounded, -, hiff, hnext⟩ := queued_transactions_stay_well_formed 2 1 inputs
  obtain ⟨hunchanged, -, -⟩ := hnext {} third
  obtain ⟨-, -, hreplies⟩ := hnext {} (request ["EXEC"])
  obtain ⟨-, -, hiff', -⟩ := queued_transactions_stay_well_formed 2 1 longer
  obtain ⟨-, -, -, hfirst⟩ := queued_transactions_stay_well_formed 2 1 []
  obtain ⟨hnormal, hbrpop⟩ := (hfirst {} third).2.1 _ _ hblock
  obtain ⟨hlength, hnone⟩ := hreplies _ hexec hreply
  exact ⟨hbounded, hopen, hiff.1 hopen, hthird, hunchanged hopen hthird,
    fun hafter => hclosed (hiff'.2 hafter), hblock, hnormal, hbrpop, hexec, _, hreply, rfl, hlength,
    hnone⟩

end Transaction
end RespStore
