import RespStore.Frame.Basic
import RespStore.Keyspace

/-! Replies made from the outcome of an access, and outcomes counted. -/
namespace RespStore

/-- The reply to a command, if it does not fail, and the keyspace that it leaves. -/
abbrev Outcome := Except StoreError Frame × Keyspace

/-- Replies to an access with what it found. -/
def answer {α : Type} (f : α → Frame) (r : Except StoreError α × Keyspace) : Outcome :=
  (r.1.map f, r.2)

/-- Takes a step for each item in turn, and counts those that tell of a change. -/
def tally {σ ι : Type} (step : σ → ι → Bool × σ) : σ → List ι → Nat × σ
  | s, [] => (0, s)
  | s, item :: rest =>
    let (changed, s) := step s item
    let (count, s) := tally step s rest
    (changed.toNat + count, s)

end RespStore
