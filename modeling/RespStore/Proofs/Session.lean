import RespStore.Engine

/-! What a session replies to a command and leaves behind it, told by the command's execution. -/
namespace RespStore

def CommandError.replyTo : Except CommandError Frame → Frame
  | .ok reply => reply
  | .error e => .error e.message

theorem Engine.snd_tryPop (ks : Keyspace) (keys : List Bytes) :
    (tryPop ks keys).2 = (ListCommand.popFirst ks keys).2 := by
  unfold tryPop
  rcases ListCommand.popFirst ks keys with ⟨_ | _, ks'⟩ <;> rfl

namespace Session

variable [Glob.Matcher]

theorem attempt_eq (ks : Keyspace) (c : Client) (command : Command) :
    attempt ks c command = (CommandError.replyTo (command.exec ks c).1, (command.exec ks c).2) := by
  unfold attempt
  generalize command.exec ks c = r
  obtain ⟨_ | _, _, _⟩ := r <;> rfl

/-- The attempt that a waiting session makes is the command as it is executed. -/
theorem tryPop_eq_attempt (ks : Keyspace) (client : Client) (keys : List Bytes) (timeout : Nat) :
    Engine.tryPop ks keys = ((attempt ks client (.lists (.brpop keys timeout))).1,
      (attempt ks client (.lists (.brpop keys timeout))).2.1) ∧
    (attempt ks client (.lists (.brpop keys timeout))).2.2 = client := by
  have hexec : Command.exec ks client (.lists (.brpop keys timeout)) =
      ((ListCommand.popFirst ks keys).1.mapError .store, (ListCommand.popFirst ks keys).2,
        client) := rfl
  rw [attempt_eq, hexec]
  refine ⟨?_, rfl⟩
  unfold Engine.tryPop
  generalize ListCommand.popFirst ks keys = r
  obtain ⟨_ | _, _⟩ := r <;> rfl

def ranOn (start : Keyspace × Client) (commands : List Command) : Keyspace × Client :=
  commands.foldl (fun (ks, c) command => (run ks c command).2) start

theorem runAll_snd (ks : Keyspace) (c : Client) (commands : List Command) :
    (runAll ks c commands).2 = ranOn (ks, c) commands := by
  induction commands generalizing ks c with
  | nil => rfl
  | cons command rest ih => exact ih _ _

/-- Each command is replied to as it is when it runs after those before it. -/
theorem getElem?_runAll (ks : Keyspace) (c : Client) (commands : List Command) (i : Nat) :
    (runAll ks c commands).1[i]? = commands[i]?.map fun command =>
      (run (ranOn (ks, c) (commands.take i)).1 (ranOn (ks, c) (commands.take i)).2 command).1 := by
  induction commands generalizing ks c i with
  | nil => rfl
  | cons command rest ih =>
    cases i with
    | zero => rfl
    | succ i => exact ih _ _ i

theorem length_runAll (ks : Keyspace) (c : Client) (commands : List Command) :
    (runAll ks c commands).1.length = commands.length := by
  induction commands generalizing ks c with
  | nil => rfl
  | cons command rest ih => exact congrArg (· + 1) (ih _ _)

end Session
end RespStore
