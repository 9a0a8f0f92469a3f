import Mathlib.Tactic.FinCases
import RespStore.Engine
import RespStore.Glob.Search
import RespStore.Proofs.Transaction

/-! EXEC does what its commands do when they are handled one by one. -/
namespace RespStore

namespace Timed

def atOnce (requests : List Frame) : List Timed := requests.map fun request => ⟨0, request⟩

theorem elapsed_atOnce (requests : List Frame) : elapsed (atOnce requests) = 0 := by
  induction requests with
  | nil => rfl
  | cons request rest ih => exact (elapsed_cons _ _).trans ((Nat.zero_add _).trans ih)

/-- Requests whose commands are known, none of which controls a transaction. -/
theorem gathered_atOnce {requests : List Frame} {commands : List Command}
    (hread : requests.map Command.ofFrame = commands.map Except.ok)
    (hcommands : ∀ c ∈ commands, ∀ tc, c ≠ .transaction tc) :
    gathered (atOnce requests) = commands ∧ ∀ t ∈ atOnce requests,
      ¬ t.EndsBlock ∧ t.read.isOk ∧ gatherReply t.read = .simple "QUEUED" := by
  induction requests generalizing commands with
  | nil =>
    cases commands with
    | nil => exact ⟨rfl, fun t ht => absurd ht List.not_mem_nil⟩
    | cons => cases hread
  | cons request rest ih =>
    cases commands with
    | nil => cases hread
    | cons c commands =>
      rw [List.map_cons, List.map_cons, List.cons.injEq] at hread
      obtain ⟨hfirst, hrest⟩ := hread
      have hc : ∀ tc, c ≠ .transaction tc := hcommands c List.mem_cons_self
      obtain ⟨hgathered, hblock⟩ :=
        ih hrest fun d hd => hcommands d (List.mem_cons_of_mem c hd)
      have hfirstRead : (⟨0, request⟩ : Timed).read = .ok c := hfirst
      refine ⟨?_, fun t ht => ?_⟩
      · rw [atOnce, List.map_cons, gathered_cons, hfirstRead,
          gathered?_eq_some_iff.2 ⟨rfl, hc⟩]
        exact congrArg (c :: ·) hgathered
      · rcases List.mem_cons.1 ht with rfl | ht
        · rw [Timed.EndsBlock, hfirstRead]
          refine ⟨?_, rfl, gatherReply_command hc⟩
          rintro (h | h)
          · exact hc _ (Except.ok.inj h)
          · exact hc _ (Except.ok.inj h)
        · exact hblock t ht

end Timed

namespace Session
open Timed

variable [Glob.Matcher]

/-- Handles a request without waiting: where the session would wait, one attempt is made. -/
def respond (s : Session) (ks : Keyspace) (request : Frame) : Frame × Session × Keyspace :=
  match s.handle ks request with
  | (.reply reply, s, ks) => (reply, s, ks)
  | (.block keys _, s, ks) =>
    let (reply, ks) := Engine.tryPop (countCommand ks) keys
    (reply, s, ks)

def respondAll (s : Session) (ks : Keyspace) : List Frame → List Frame × Session × Keyspace
  | [] => ([], s, ks)
  | request :: rest =>
    let (reply, s, ks) := s.respond ks request
    let (replies, s, ks) := respondAll s ks rest
    (reply :: replies, s, ks)

theorem respond_command {s : Session} (hs : s.state = .normal) (ks : Keyspace) {request : Frame}
    {c : Command} (hread : Command.ofFrame request = .ok c) (hc : ∀ tc, c ≠ .transaction tc) :
    s.respond ks request = ((run ks s.client c).1, { s with client := (run ks s.client c).2.2 },
      (run ks s.client c).2.1) := by
  have hhandle : s.handle ks request = s.handleNormal ks (.ok c) := by
    unfold Session.handle
    rw [hs, hread]
  unfold respond
  rw [hhandle]
  cases c with
  | transaction tc => exact absurd rfl (hc tc)
  | lists c =>
    cases c with
    | brpop keys timeout =>
      obtain ⟨hpop, hclient⟩ := tryPop_eq_attempt (countCommand ks) s.client keys timeout
      simp only [handleNormal, run, hpop, hclient]
    | _ => rfl
  | _ => rfl

/-- Handled one by one, commands run in order. -/
theorem respondAll_commands {s : Session} (hs : s.state = .normal) (ks : Keyspace)
    {requests : List Frame} {commands : List Command}
    (hread : requests.map Command.ofFrame = commands.map Except.ok)
    (hcommands : ∀ c ∈ commands, ∀ tc, c ≠ .transaction tc) :
    s.respondAll ks requests = ((runAll ks s.client commands).1,
      { s with client := (ranOn (ks, s.client) commands).2 },
      (ranOn (ks, s.client) commands).1) := by
  induction requests generalizing s ks commands with
  | nil =>
    cases commands with
    | nil => rfl
    | cons => cases hread
  | cons request rest ih =>
    cases commands with
    | nil => cases hread
    | cons c commands =>
      rw [List.map_cons, List.map_cons, List.cons.injEq] at hread
      obtain ⟨hfirst, hrest⟩ := hread
      have hstep := respond_command hs ks hfirst (hcommands c List.mem_cons_self)
      have hlater := ih (s := { s with client := (run ks s.client c).2.2 }) hs
        (run ks s.client c).2.1 hrest fun d hd => hcommands d (List.mem_cons_of_mem c hd)
      simp only [respondAll, hstep, hlater]
      rfl

end Session

namespace Transaction
open Timed

section
variable [Glob.Matcher]

theorem handleAll_queued {s : Session} (ks : Keyspace) {multi : Frame} {requests : List Frame}
    {commands : List Command} (hs : s.state = .normal)
    (hmulti : Command.ofFrame multi = .ok (.transaction .multi))
    (hread : requests.map Command.ofFrame = commands.map Except.ok)
    (hcommands : ∀ c ∈ commands, ∀ tc, c ≠ .transaction tc)
    (hroom : commands.length ≤ s.maxQueued) :
    s.handleAll ks (atOnce (multi :: requests)) =
      (.reply .ok :: List.replicate commands.length (.reply (.simple "QUEUED")),
        s.gathering commands false, ks) := by
  obtain ⟨hgathered, hblock⟩ := gathered_atOnce hread hcommands
  have hfirst : (⟨0, multi⟩ : Timed).read = .ok (.transaction .multi) := hmulti
  have hwhole := Session.handleAll_gathered ks hs hfirst (fun t ht => (hblock t ht).1)
    (by rw [hgathered]; exact hroom)
  have hok : ((atOnce requests).any fun t => !t.read.isOk) = false := by
    rw [List.any_eq_false]
    intro t ht
    rw [(hblock t ht).2.1]
    decide
  have hreplies : ((atOnce requests).map fun t => Step.reply (gatherReply t.read)) =
      List.replicate commands.length (.reply (.simple "QUEUED")) := by
    have hlength := congrArg List.length hread
    rw [List.eq_replicate_iff]
    refine ⟨by simpa [atOnce] using hlength, fun step hstep => ?_⟩
    obtain ⟨t, ht, rfl⟩ := List.mem_map.1 hstep
    rw [(hblock t ht).2.2]
  have htime : ks.advance (elapsed (⟨0, multi⟩ :: atOnce requests)) = ks :=
    congrArg ks.advance (elapsed_atOnce (multi :: requests))
  rw [hok, hgathered, hreplies, htime] at hwhole
  exact hwhole

/-- A transaction answers that it has queued each command and does nothing else until EXEC, whose
reply is made of the replies to the commands as they run in order. It leaves behind what they do,
and handling the requests outside a transaction, with one attempt in place of a wait, is the same. -/
theorem exec_eq_in_order {s : Session} (ks : Keyspace) {multi exec : Frame}
    {requests : List Frame} {commands : List Command} (hs : s.state = .normal)
    (hmulti : Command.ofFrame multi = .ok (.transaction .multi))
    (hexec : Command.ofFrame exec = .ok (.transaction .exec))
    (hread : requests.map Command.ofFrame = commands.map Except.ok)
    (hcommands : ∀ c ∈ commands, ∀ tc, c ≠ .transaction tc)
    (hroom : commands.length ≤ s.maxQueued) :
    (∀ n ≤ requests.length, s.handleAll ks (atOnce (multi :: requests.take n)) =
      (.reply .ok :: List.replicate n (.reply (.simple "QUEUED")),
        s.gathering (commands.take n) false, ks)) ∧
    ∃ replies,
      s.handleAll ks (atOnce (multi :: requests ++ [exec])) =
        (.reply .ok :: List.replicate commands.length (.reply (.simple "QUEUED")) ++
            [.reply (.array replies)],
          { s with client := (Session.ranOn (ks, s.client) commands).2 },
          (Session.ranOn (ks, s.client) commands).1) ∧
      replies.length = commands.length ∧
      (∀ i c, commands[i]? = some c → replies[i]? =
        let before := Session.ranOn (ks, s.client) (commands.take i)
        some (Session.run before.1 before.2 c).1) ∧
      s.respondAll ks requests =
        (replies, { s with client := (Session.ranOn (ks, s.client) commands).2 },
          (Session.ranOn (ks, s.client) commands).1) := by
  constructor
  · intro n hn
    have hlength : requests.length = commands.length := by
      simpa using congrArg List.length hread
    have htake : (requests.take n).map Command.ofFrame = (commands.take n).map Except.ok := by
      rw [List.map_take, hread, List.map_take]
    have hn' : (commands.take n).length = n := List.length_take_of_le (hlength ▸ hn)
    have hqueued := handleAll_queued ks hs hmulti htake
      (fun c hc => hcommands c (List.mem_of_mem_take hc)) (by omega)
    rwa [hn'] at hqueued
  · have hqueued := handleAll_queued ks hs hmulti hread hcommands hroom
    have hlast : (⟨0, exec⟩ : Timed).read = .ok (.transaction .exec) := hexec
    have hwhole := Session.handleAll_append_one hqueued (s.handle_exec commands ks hlast)
    refine ⟨_, ?_, Session.length_runAll ks s.client commands, fun i c hc => ?_,
      Session.respondAll_commands hs ks hread hcommands⟩
    · rw [atOnce, List.cons_append, List.map_cons, List.map_append]
      exact hwhole.trans (by rw [← hs])
    · rw [Session.getElem?_runAll, hc]
      rfl

end

/-- The second of three commands fails because of the first, and the last one ends the session. -/
theorem exec_eq_in_order_of_three :
    let s : Session := { client := { id := 1 }, maxQueued := 3 }
    let frame (words : List String) : Frame := .bulkArray (words.map Bytes.ofString)
    let requests := [frame ["SET", "a", "x"], frame ["INCR", "a"], frame ["QUIT"]]
    (requests.map Command.ofFrame = [.strings (.set [97] [120] {}), .strings (.incr [97]),
      .server .quit].map Except.ok) ∧
    ∃ replies, (s.handleAll {} (atOnce (frame ["MULTI"] :: requests ++ [frame ["EXEC"]]))).1 =
      .reply .ok :: List.replicate 3 (.reply (.simple "QUEUED")) ++ [.reply (.array replies)] ∧
      (s.respondAll {} requests).1 = replies := by
  intro s frame requests
  have hstate : s.state = .normal := rfl
  have hmulti : Command.ofFrame (frame ["MULTI"]) = .ok (.transaction .multi) := rfl
  have hexec : Command.ofFrame (frame ["EXEC"]) = .ok (.transaction .exec) := rfl
  have hread : requests.map Command.ofFrame = [.strings (.set [97] [120] {}),
      .strings (.incr [97]), .server .quit].map Except.ok := rfl
  have hcommands : ∀ c ∈ [Command.strings (.set [97] [120] {}), .strings (.incr [97]),
      .server .quit], ∀ tc, c ≠ .transaction tc := by
    intro c hc tc
    fin_cases hc <;> rintro ⟨⟩
  obtain ⟨-, replies, hwhole, -, -, hdirect⟩ :=
    exec_eq_in_order {} hstate hmulti hexec hread hcommands (Nat.le_refl 3)
  exact ⟨hread, replies, congrArg Prod.fst hwhole, congrArg Prod.fst hdirect⟩

end Transaction
end RespStore
