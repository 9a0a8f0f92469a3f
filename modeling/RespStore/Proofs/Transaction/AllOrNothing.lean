import Mathlib.Tactic.FinCases
import RespStore.Glob.Search
import RespStore.Proofs.Transaction

/-! A transaction is all or nothing as long as the session has room for its commands. -/
namespace RespStore

namespace Transaction
open Timed

theorem exists_too_many {block : List Timed} {n : Nat} (h : n < (gathered block).length) :
    ∃ before one after, block = before ++ one :: after ∧ (gathered before).length = n ∧
      (gathered? one.read).isSome := by
  induction block generalizing n with
  | nil => cases h
  | cons t rest ih =>
    rw [gathered_cons, List.length_append] at h
    by_cases hfirst : (gathered? t.read).isSome ∧ n = 0
    · obtain ⟨hsome, rfl⟩ := hfirst
      exact ⟨[], t, rest, rfl, rfl, hsome⟩
    · have hle : (gathered? t.read).toList.length ≤ n := by
        cases hc : gathered? t.read with
        | none => exact Nat.zero_le n
        | some c =>
          rw [hc] at hfirst
          exact Nat.pos_of_ne_zero fun h0 => hfirst ⟨rfl, h0⟩
      have hrest : n - (gathered? t.read).toList.length < (gathered rest).length := by omega
      obtain ⟨before, one, after, rfl, hlength, hone⟩ := ih hrest
      refine ⟨t :: before, one, after, rfl, ?_, hone⟩
      rw [gathered_cons, List.length_append, hlength]
      omega

variable (s : Session) (ks : Keyspace) (multi : Timed) (block : List Timed) (exec : Timed)

section
variable [Glob.Matcher]

/-- The last reply has one reply in it for each request but nested ones to begin a transaction,
and the keyspace is as if their commands had just run in order. -/
def Executed : Prop :=
  ∃ commands replies,
    (block.filter (!·.isMulti)).map read = commands.map Except.ok ∧
    replies.length = commands.length ∧
    (s.handleAll ks (multi :: block ++ [exec])).1.getLast? = some (.reply (.array replies)) ∧
    (s.handleAll ks (multi :: block ++ [exec])).2.2 =
      (Session.ranOn (ks.advance (elapsed (multi :: block ++ [exec])), s.client) commands).1

def Untouched : Prop :=
  (s.handleAll ks (multi :: block ++ [exec])).2.2.live =
    (ks.advance (elapsed (multi :: block ++ [exec]))).live

variable {s : Session} {multi exec : Timed} {block : List Timed}

/-- With room for all commands, either all are executed or none is. -/
theorem executed_or_untouched (hs : s.state = .normal)
    (hmulti : multi.read = .ok (.transaction .multi))
    (hexec : exec.read = .ok (.transaction .exec)) (hblock : ∀ t ∈ block, ¬ t.EndsBlock)
    (hroom : (gathered block).length ≤ s.maxQueued) :
    Executed s ks multi block exec ∨ Untouched s ks multi block exec := by
  have hgathered := Session.handleAll_gathered ks hs hmulti hblock hroom
  have htime := Session.advance_elapsed_append ks (multi :: block) exec
  cases haborted : block.any fun t => !t.read.isOk with
  | false =>
    left
    have hread : ∀ t ∈ block, t.read.isOk := by
      intro t ht
      have hnot := List.any_eq_false.1 haborted t ht
      simpa using hnot
    rw [haborted] at hgathered
    have hwhole := Session.handleAll_append_one hgathered (s.handle_exec _ _ hexec)
    rw [htime] at hwhole
    exact ⟨gathered block, _, map_read_filter hblock hread, Session.length_runAll _ _ _,
      by rw [hwhole, List.getLast?_concat], by rw [hwhole]⟩
  | true =>
    right
    rw [haborted] at hgathered
    have hwhole := Session.handleAll_append_one hgathered (s.handle_exec_aborted _ _ hexec)
    rw [Untouched, hwhole, htime]

/-- The first command too many drops the transaction and leaves the session as it was. -/
theorem handleAll_full (hs : s.state = .normal)
    (hmulti : multi.read = .ok (.transaction .multi)) (hblock : ∀ t ∈ block, ¬ t.EndsBlock)
    (hroom : (gathered block).length = s.maxQueued) {one : Timed}
    (hone : (gathered? one.read).isSome) :
    s.handleAll ks (multi :: block ++ [one]) =
      (.reply .ok :: (block.map fun t => .reply (gatherReply t.read)) ++
          [.reply (.error (TransactionError.queueFull s.maxQueued).message)],
        s, ks.advance (elapsed (multi :: block ++ [one]))) := by
  have hgathered := Session.handleAll_gathered ks hs hmulti hblock (Nat.le_of_eq hroom)
  have hfull := s.handle_full (gathered block) (block.any fun t => !t.read.isOk)
    ((ks.advance (elapsed (multi :: block))).advance one.gap) hone (Nat.le_of_eq hroom.symm)
  have hnormal : ({ s with state := .normal } : Session) = s := by rw [← hs]
  rw [hnormal] at hfull
  have hwhole := Session.handleAll_append_one hgathered hfull
  rwa [Session.advance_elapsed_append] at hwhole

/-- A transaction with room for its commands is all or nothing. In one with too many the first for
which there is no room drops it: nothing has changed then, and what follows is handled outside. -/
theorem all_or_nothing (hs : s.state = .normal) (hmulti : multi.read = .ok (.transaction .multi))
    (hexec : exec.read = .ok (.transaction .exec)) (hblock : ∀ t ∈ block, ¬ t.EndsBlock) :
    ((gathered block).length ≤ s.maxQueued →
      Executed s ks multi block exec ∨ Untouched s ks multi block exec) ∧
    (s.maxQueued < (gathered block).length → ∃ before one after,
      block = before ++ one :: after ∧
      (gathered before).length = s.maxQueued ∧ (gathered? one.read).isSome ∧
      let first := multi :: before ++ [one]
      let rest := s.handleAll (ks.advance (elapsed first)) (after ++ [exec])
      s.handleAll ks first =
        (.reply .ok :: (before.map fun t => .reply (gatherReply t.read)) ++
            [.reply (.error (TransactionError.queueFull s.maxQueued).message)],
          s, ks.advance (elapsed first)) ∧
      s.handleAll ks (multi :: block ++ [exec]) =
        ((s.handleAll ks first).1 ++ rest.1, rest.2)) := by
  refine ⟨executed_or_untouched ks hs hmulti hexec hblock, fun hfull => ?_⟩
  obtain ⟨before, one, after, rfl, hroom, hone⟩ := exists_too_many hfull
  have hbefore : ∀ t ∈ before, ¬ t.EndsBlock := fun t ht =>
    hblock t (List.mem_append_left _ ht)
  have hdropped := handleAll_full ks hs hmulti hbefore hroom hone
  refine ⟨before, one, after, rfl, hroom, hone, hdropped, ?_⟩
  have hsplit : multi :: (before ++ one :: after) ++ [exec] =
      (multi :: before ++ [one]) ++ (after ++ [exec]) := by
    simp only [List.cons_append, List.append_assoc, List.nil_append]
  rw [hsplit, Session.handleAll_append, hdropped]

end

theorem all_or_nothing_of_two_sets :
    let s : Session := { client := { id := 1 }, maxQueued := 2 }
    let multi := ofWords ["MULTI"]
    let block := [ofWords ["SET", "a", "1"], multi, ofWords ["SET", "b", "2"]]
    let exec := ofWords ["EXEC"]
    (s.state = .normal ∧ multi.read = .ok (.transaction .multi) ∧
      exec.read = .ok (.transaction .exec) ∧ ∀ t ∈ block, ¬ t.EndsBlock) ∧
    (Executed s {} multi block exec ∨ Untouched s {} multi block exec) := by
  intro s multi block exec
  have hblock : ∀ t ∈ [ofWords ["SET", "a", "1"], ofWords ["MULTI"], ofWords ["SET", "b", "2"]],
      ¬ t.EndsBlock := by
    intro t ht
    fin_cases ht <;> rintro (h | h) <;> cases h
  exact ⟨⟨rfl, rfl, rfl, hblock⟩, (all_or_nothing {} rfl rfl rfl hblock).1 (Nat.le_refl 2)⟩

/-- Without room for a second command, the third of three is executed and the others are not. -/
theorem not_all_or_nothing_beyond_room :
    ¬ ∀ (s : Session) (ks : Keyspace) (multi exec : Timed) (block : List Timed),
      s.state = .normal → multi.read = .ok (.transaction .multi) →
      exec.read = .ok (.transaction .exec) → (∀ t ∈ block, ¬ t.EndsBlock) →
      Executed s ks multi block exec ∨ Untouched s ks multi block exec := by
  intro h
  have hblock : ∀ t ∈ [ofWords ["SET", "a", "1"], ofWords ["SET", "b", "2"],
      ofWords ["SET", "c", "3"]], ¬ t.EndsBlock := by
    intro t ht
    fin_cases ht <;> rintro (h | h) <;> cases h
  rcases h { client := { id := 1 }, maxQueued := 1 } {} (ofWords ["MULTI"]) (ofWords ["EXEC"]) _
    rfl rfl rfl hblock with hexecuted | huntouched
  · obtain ⟨_, _, -, -, hlast, -⟩ := hexecuted
    cases hlast
  · have hsize := congrArg Table.size huntouched
    cases hsize

end Transaction
end RespStore
