import Mathlib.Data.List.Forall2
import RespStore.Glob.Search
import RespStore.Proofs.Replies
import RespStore.Proofs.Request.Quotes

/-! Which replies a client reads back from the stream as they were sent: all but the messages that
quote a request with a line break in it. -/
namespace RespStore

namespace Session

variable {s s' : Session} {ks ks' : Keyspace} [Glob.Matcher]

theorem run_oneLine (ks : Keyspace) (client : Client) (c : Command) :
    (run ks client c).1.OneLine := by
  rw [run, attempt_eq]
  exact c.exec_oneLine _ _

theorem runAll_oneLine (ks : Keyspace) (client : Client) (commands : List Command) :
    ∀ f ∈ (runAll ks client commands).1, f.OneLine := by
  induction commands generalizing ks client with
  | nil => nofun
  | cons c rest ih => exact List.forall_mem_cons.2 ⟨run_oneLine ks client c, ih _ _⟩

theorem oneLine_of_handleNormal {c : Command} {r : Frame}
    (h : s.handleNormal ks (.ok c) = (.reply r, s', ks')) : r.OneLine := by
  unfold handleNormal at h
  split at h
  · next heq => cases heq
  · cases h
    exact Frame.oneLine_ok
  · cases h
  · cases h
    exact run_oneLine _ _ _

theorem execute_oneLine (s : Session) (ks : Keyspace) (queue : List Command) (aborted : Bool) :
    (s.execute ks queue aborted).1.OneLine := by
  unfold execute
  split
  · exact TransactionError.aborted.isLine_message
  · exact Frame.oneLine_array_iff.2 (runAll_oneLine ks s.client queue)

theorem handleQueuing_oneLine (s : Session) (ks : Keyspace) (queue : List Command) (aborted : Bool)
    (c : Command) : (s.handleQueuing ks queue aborted (.ok c)).1.OneLine := by
  unfold handleQueuing
  split
  · next heq => cases heq
  · exact s.execute_oneLine ks queue aborted
  · exact Frame.oneLine_ok
  · exact TransactionError.nestedMulti.isLine_message
  · split
    · exact (TransactionError.queueFull s.maxQueued).isLine_message
    · exact isLine_of_not_mem (by decide)

/-- A reply says why the request cannot be read, or it stays on its line. -/
theorem handle_reply {request r : Frame} (h : s.handle ks request = (.reply r, s', ks')) :
    (∃ e, Command.ofFrame request = .error e ∧ r = .error e.message) ∨
      (∃ c, Command.ofFrame request = .ok c) ∧ r.OneLine := by
  unfold handle at h
  cases hread : Command.ofFrame request with
  | error e =>
    left
    rw [hread] at h
    refine ⟨e, rfl, ?_⟩
    split at h
    · cases h
      rfl
    · cases h
      rfl
  | ok c =>
    right
    rw [hread] at h
    refine ⟨⟨c, rfl⟩, ?_⟩
    split at h
    · exact oneLine_of_handleNormal h
    · cases h
      exact s.handleQueuing_oneLine ks _ _ c

theorem ofFrame_of_handle_block {request : Frame} {keys : List Bytes} {timeout : Nat}
    (h : s.handle ks request = (.block keys timeout, s', ks')) :
    ∃ c, Command.ofFrame request = .ok c := by
  unfold handle at h
  cases hread : Command.ofFrame request with
  | ok c => exact ⟨c, rfl⟩
  | error e =>
    rw [hread] at h
    split at h
    · cases h
    · cases h

end Session

theorem Waiting.eq_of_settle_finished {keys : List Bytes} {deadline : Option Nat} {now : Nat}
    {reply r : Frame} (h : settle keys deadline now reply = .finished r) : r = reply := by
  unfold settle at h
  split at h
  · split at h
    · cases h
      rfl
    · cases h
  · cases h
    rfl

theorem Engine.tryPop_oneLine (ks : Keyspace) (keys : List Bytes) :
    (tryPop ks keys).1.OneLine := by
  have hpop := ListCommand.popFirst_oneLine ks keys
  unfold tryPop
  split
  · next reply _ heq => exact hpop reply (congrArg Prod.fst heq)
  · next cause _ _ => exact cause.isLine_message

namespace Framing

section
variable [Glob.Matcher]

/-- A session waits on behalf of a request, since then or still after more attempts. -/
inductive Waits (request : Frame) : Waiting → Prop
  | began {e e' : Engine} {id : SessionId} {w : Waiting}
      (h : e.submit id request = .ok (.waiting w, e')) : Waits request w
  | again {e e' : Engine} {w w' : Waiting} (hw : Waits request w)
      (h : e.poll w = (.waiting w', e')) : Waits request w'

/-- What a request can be replied to with: by any session at once, or after it has waited. -/
inductive Answers (request : Frame) : Frame → Prop
  | handled {s s' : Session} {ks ks' : Keyspace} {r : Frame}
      (h : s.handle ks request = (.reply r, s', ks')) : Answers request r
  | submitted {e e' : Engine} {id : SessionId} {r : Frame}
      (h : e.submit id request = .ok (.finished r, e')) : Answers request r
  | waited {e e' : Engine} {w : Waiting} {r : Frame} (hw : Waits request w)
      (h : e.poll w = (.finished r, e')) : Answers request r

end

/-- If a request is refused, what the message quotes of it stays on its line. -/
def QuotesLine (request : Frame) : Prop :=
  ∀ e, Command.ofFrame request = .error e → ∀ s ∈ e.quoted?, IsLine s

variable {request : Frame}

section
variable [Glob.Matcher]

theorem ofFrame_of_waits {w : Waiting} (h : Waits request w) :
    ∃ c, Command.ofFrame request = .ok c := by
  induction h with
  | began h =>
    unfold Engine.submit at h
    split at h
    · cases h
    · split at h
      · cases h
      · next hblock => exact Session.ofFrame_of_handle_block hblock
  | again _ _ ih => exact ih

theorem answers_cases {r : Frame} (h : Answers request r) :
    (∃ e, Command.ofFrame request = .error e ∧ r = .error e.message) ∨
      (∃ c, Command.ofFrame request = .ok c) ∧ r.OneLine := by
  cases h with
  | handled h => exact Session.handle_reply h
  | submitted h =>
    unfold Engine.submit at h
    split at h
    · cases h
    · split at h
      · next hreply =>
        cases h
        exact Session.handle_reply hreply
      · next hblock =>
        right
        refine ⟨Session.ofFrame_of_handle_block hblock, ?_⟩
        have hsettled := congrArg Prod.fst (Except.ok.inj h)
        rw [Waiting.eq_of_settle_finished hsettled]
        exact Engine.tryPop_oneLine _ _
  | waited hw h =>
    right
    refine ⟨ofFrame_of_waits hw, ?_⟩
    have hsettled := congrArg Prod.fst h
    rw [Waiting.eq_of_settle_finished hsettled]
    exact Engine.tryPop_oneLine _ _

theorem oneLine_iff {r : Frame} (h : Answers request r) : r.OneLine ↔ QuotesLine request := by
  rcases answers_cases h with ⟨e, hread, rfl⟩ | ⟨⟨c, hread⟩, hr⟩
  · have hmessage := e.isLine_message_iff (Command.ofFrame_names request e hread)
    refine hmessage.trans ⟨fun hquoted e' he' => ?_, fun hquoted => hquoted e hread⟩
    rw [hread] at he'
    cases he'
    exact hquoted
  · refine iff_of_true hr fun e he => ?_
    rw [hread] at he
    cases he

/-- An answer reads back as it was sent, whatever is sent after it, exactly if what it quotes of
the request stays on its line and it is not larger than a memory. -/
theorem answer_reads_back_iff {r : Frame} (h : Answers request r) (rest : Bytes) :
    Frame.parse (r.serialize ++ rest) = .ok (r, rest) ↔ QuotesLine request ∧ r.Fits := by
  rw [Frame.parse_serialize_iff, oneLine_iff h]

/-- Answers to any number of requests read back as just those answers, whatever is sent after them,
exactly if none quotes a line break of its request and none is larger than a memory. -/
theorem answers_read_back_iff {requests replies : List Frame}
    (h : List.Forall₂ Answers requests replies) (rest : Bytes) :
    Frame.parseAll Frame.parse replies.length (Frame.serializeAll replies ++ rest) =
        .ok (replies, rest) ↔
      (∀ request ∈ requests, QuotesLine request) ∧ ∀ r ∈ replies, r.Fits := by
  rw [Frame.parseAll_parse_iff]
  induction h with
  | nil => simp
  | cons hfirst hrest ih =>
    simp only [List.forall_mem_cons, ih, oneLine_iff hfirst]
    exact and_and_and_comm

end

theorem answers_read_back_of_ping_and_unknown :
    let requests := [Frame.bulkArray [Bytes.ofString "PING"], .bulkArray [Bytes.ofString "nope"]]
    let replies := [Frame.simple "PONG", .error "ERR unknown command 'nope'"]
    let rest := Bytes.ofString ":1"
    List.Forall₂ Answers requests replies ∧
      Frame.parseAll Frame.parse 2 (Frame.serializeAll replies ++ rest) = .ok (replies, rest) := by
  intro requests replies rest
  let s : Session := { client := { id := 1 }, maxQueued := 1 }
  have hping : s.handle {} (.bulkArray [Bytes.ofString "PING"]) =
      (.reply (.simple "PONG"), s, Session.countCommand {}) := rfl
  have hunknown : s.handle {} (.bulkArray [Bytes.ofString "nope"]) =
      (.reply (.error "ERR unknown command 'nope'"), s, {}) := rfl
  have hanswers : List.Forall₂ Answers requests replies :=
    .cons (.handled hping) (.cons (.handled hunknown) .nil)
  refine ⟨hanswers, (answers_read_back_iff hanswers rest).2 ⟨?_, ?_⟩⟩
  · refine List.forall_mem_cons.2 ⟨nofun, List.forall_mem_cons.2 ⟨?_, nofun⟩⟩
    rintro e ⟨⟩ s ⟨⟩
    exact isLine_of_not_mem (by decide)
  · exact List.forall_mem_cons.2 ⟨trivial, List.forall_mem_cons.2 ⟨trivial, nofun⟩⟩

/-- The name of an unknown command is quoted whatever is in it. -/
theorem not_all_answers_read_back :
    ¬ ∀ (b : Bytes) (request r : Frame) (rest : Bytes), Frame.parse b = .ok (request, []) →
      Answers request r → r.Fits → Frame.parse (r.serialize ++ rest) = .ok (r, rest) := by
  intro h
  let s : Session := { client := { id := 1 }, maxQueued := 1 }
  have hparse : Frame.parse (Bytes.ofString "*1\r\n$4\r\na\r\nb\r\n") =
      .ok (.bulkArray [Bytes.ofString "a\r\nb"], []) := rfl
  have hunknown : s.handle {} (.bulkArray [Bytes.ofString "a\r\nb"]) =
      (.reply (.error "ERR unknown command 'a\r\nb'"), s, {}) := rfl
  have hread := h _ _ _ [] hparse (.handled hunknown) trivial
  obtain ⟨hquotes, -⟩ := (answer_reads_back_iff (.handled hunknown) []).1 hread
  have hline : IsLine "a\r\nb" := hquotes (.unknownCommand "a\r\nb") rfl _ rfl
  exact hline ⟨[97], [98], rfl⟩

end Framing
end RespStore
