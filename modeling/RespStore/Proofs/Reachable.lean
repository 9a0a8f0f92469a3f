import RespStore.Proofs.Keyspace
import RespStore.Proofs.Request.WellTimed

/-! The keyspaces that a server gets to, and what holds in all of them. -/
namespace RespStore

namespace Keyspace

/-- The keyspaces that commands and the clock lead to from the empty one, whoever sends the commands
and whatever is counted on the way. -/
inductive Reachable [Glob.Matcher] : Keyspace → Prop
  | start : Reachable {}
  | exec {ks : Keyspace} (h : Reachable ks) {request : Frame} {c : Command}
      (hread : Command.ofFrame request = .ok c) (client : Client) :
      Reachable (c.exec ks client).2.1
  | advance {ks : Keyspace} (h : Reachable ks) (millis : Nat) : Reachable (ks.advance millis)
  | mapStats {ks : Keyspace} (h : Reachable ks) (f : Stats → Stats) : Reachable (ks.mapStats f)

/-- No entry, expired or not, holds an empty collection. -/
def Filled (ks : Keyspace) : Prop := ∀ key, Slot.Filled (ks.entries.get? key)

variable {ks ks' : Keyspace} {key : Bytes}

section Slots

variable {P : Slot → Prop} (hnone : P none)
include hnone

theorem get?_live_of_forall (h : ∀ key, P (ks.entries.get? key)) (key : Bytes) :
    P (ks.live.get? key) := by
  cases hlive : ks.live.get? key with
  | none => exact hnone
  | some e =>
    rw [get?_live, Option.filter_eq_some_iff] at hlive
    rw [← hlive.1]
    exact h key

/-- What every access preserves of what a key holds, operations preserve under all keys. By
induction on the accesses that an operation is made of. -/
theorem Accesses.forall {R : Nat → Slot → Slot → Prop} {keys : List Bytes} {α : Type}
    {op : Keyspace → α × Keyspace} (hop : Accesses R keys op)
    (hR : ∀ {now : Nat} {found left : Slot}, R now found left → P found → P left) {ks : Keyspace}
    (h : ∀ key, P (ks.entries.get? key)) (key : Bytes) : P ((op ks).2.entries.get? key) := by
  have hset {target : Bytes} {slot : Slot} {ks' : Keyspace} (hslot : P slot)
      (h : ∀ key, P (ks'.entries.get? key)) (key : Bytes) :
      P ((ks'.entries.set target slot).get? key) := by
    rw [Table.get?_set]
    split
    · exact hslot
    · exact h key
  induction hop generalizing ks key with
  | done a => exact h key
  | access hkey f hf =>
    rw [entries_access]
    exact hset (hR (hf _ _) (get?_live_of_forall hnone h _)) h key
  | put hkey entry hentry => exact hset (hR (hentry ks.now none) hnone) h key
  | andThen _ _ ihop ihnext => exact ihnext _ (ihop h) key

/-- What commands preserve of what keys hold is so wherever the server gets to. -/
theorem Reachable.forall [Glob.Matcher]
    (hexec : ∀ {ks : Keyspace} (c : Command) (client : Client), (∀ key, P (ks.entries.get? key)) →
      ∀ key, P ((c.exec ks client).2.1.entries.get? key))
    (h : ks.Reachable) : ∀ key, P (ks.entries.get? key) := by
  induction h with
  | start => exact fun _ => hnone
  | exec _ hread client ih => exact hexec _ client ih
  | advance _ millis ih => exact ih
  | mapStats _ f ih => exact ih

end Slots

theorem Filled.get?_live (h : ks.Filled) (key : Bytes) : Slot.Filled (ks.live.get? key) :=
  get?_live_of_forall Slot.filled_none h key

theorem Accesses.filled {ttls : Nat → Prop} {keys : List Bytes} {α : Type}
    {op : Keyspace → α × Keyspace} (hop : Accesses (Slot.Change ttls) keys op) {ks : Keyspace}
    (h : ks.Filled) : (op ks).2.Filled :=
  hop.forall Slot.filled_none Slot.Change.filled h

end Keyspace

open Keyspace

variable [Glob.Matcher]

theorem Command.now_exec (c : Command) (ks : Keyspace) (client : Client) :
    (c.exec ks client).2.1.now = ks.now := by
  rcases c.changes_or_flushes client with ⟨keys, hop⟩ | hflush
  · exact hop.now ks
  · rw [hflush]
    rfl

theorem Command.exec_filled (c : Command) {ks : Keyspace} (h : ks.Filled) (client : Client) :
    (c.exec ks client).2.1.Filled := by
  rcases c.changes_or_flushes client with ⟨keys, hop⟩ | hflush
  · exact hop.filled h
  · rw [hflush]
    exact fun _ => Slot.filled_none

theorem Keyspace.Reachable.filled {ks : Keyspace} (h : ks.Reachable) : ks.Filled :=
  h.forall Slot.filled_none fun c client hks => c.exec_filled hks client

end RespStore
