import RespStore.Proofs.Interleaving
import RespStore.Proofs.Reachable

/-! No empty collection is ever stored, so a key that is live has elements to count and to pop. -/
namespace RespStore
open Keyspace

section
variable [Glob.Matcher]

theorem Keyspace.History.filled {P : Command → Prop} {ks ks' : Keyspace} {log : List Execution}
    (h : History P ks log ks') (hks : ks.Filled) : ks'.Filled := by
  induction h with
  | nil => exact hks
  | exec _ _ client ih => exact Command.exec_filled _ ih client
  | tick _ _ ih => exact ih
  | mapStats _ f ih => exact ih

/-- From nothing, no order of steps leads to an empty collection. -/
theorem Server.filled_run (maxQueued : Nat) (events : List Event) :
    (({ engine := { maxQueued } } : Server).run events).2.keyspace.Filled := by
  have hstart : Only (fun _ => True) { engine := { maxQueued } } := ⟨nofun, nofun⟩
  have hrun := history_run (fun _ _ _ _ => trivial) hstart
    fun event (_ : event ∈ events) _ _ => trivial
  exact hrun.filled fun _ => Slot.filled_none

end

namespace Slot

variable {α : Type} [Collection α] {slot : Slot}

theorem collection?_eq_ok_none_iff : collection? α slot = .ok none ↔ slot = none := by
  constructor
  · intro h
    unfold collection? at h
    split at h
    · rfl
    · split at h <;> cases h
  · rintro rfl
    rfl

theorem collection?_eq_error_iff {e : StoreError} : collection? α slot = .error e ↔
    e = .wrongType ∧ ∃ held ∈ slot, (Collection.ofValue? held.value : Option α) = none := by
  unfold collection?
  constructor
  · intro h
    split at h
    · cases h
    · next held =>
      split at h
      · cases h
      · next hnone =>
        cases h
        exact ⟨rfl, held, rfl, hnone⟩
  · rintro ⟨rfl, held, hheld, hnone⟩
    obtain rfl : slot = some held := hheld
    simp only [hnone]

theorem count_pos_iff [LawfulCollection α] (hslot : slot.Filled) {count : Option α → Nat}
    (hnone : count none = 0) (hsome : ∀ c, Collection.isEmpty c = false → 0 < count (some c))
    {found : Option α} (h : collection? α slot = .ok found) :
    0 < count found ↔ slot.isSome = true := by
  cases found with
  | none =>
    rw [collection?_eq_ok_none_iff.1 h, hnone]
    exact iff_of_false (Nat.lt_irrefl 0) nofun
  | some c =>
    have hpos : 0 < count (some c) := hsome c (isEmpty_of_collection? hslot h)
    have hne : slot ≠ none := fun hnone => by
      rw [hnone] at h
      cases h
    exact iff_of_true hpos (Option.isSome_iff_ne_none.2 hne)

end Slot

namespace Keyspace

variable {α : Type} [Collection α] {ks : Keyspace}

theorem getAs_fst (ks : Keyspace) (key : Bytes) :
    (ks.getAs α key).1 = Slot.collection? α (ks.live.get? key) := ks.access_fst key _

/-- A reply that counts what a key holds, and so tells whether it is live, unless it holds something
else than is counted. -/
def Counts (α : Type) [Collection α] (ks : Keyspace) (key : Bytes)
    (reply : Except CommandError Frame) : Prop :=
  (∃ n, reply = .ok (.count n) ∧ (0 < n ↔ (ks.live.get? key).isSome = true)) ∨
    reply = .error (.store .wrongType) ∧
      ∃ e ∈ ks.live.get? key, (Collection.ofValue? e.value : Option α) = none

theorem Filled.counts [LawfulCollection α] (hks : ks.Filled) (key : Bytes)
    {count : Option α → Nat} (hnone : count none = 0)
    (hsome : ∀ c, Collection.isEmpty c = false → 0 < count (some c)) :
    Counts α ks key
      ((answer (fun found => .count (count found)) (ks.getAs α key)).1.mapError .store) := by
  unfold answer
  rw [getAs_fst]
  cases hfound : Slot.collection? α (ks.live.get? key) with
  | ok found => exact .inl ⟨_, rfl, Slot.count_pos_iff (hks.get?_live key) hnone hsome hfound⟩
  | error e =>
    obtain ⟨rfl, hheld⟩ := Slot.collection?_eq_error_iff.1 hfound
    exact .inr ⟨rfl, hheld⟩

theorem Filled.pop_reply_eq_nullBulk_iff (hks : ks.Filled) (key : Bytes)
    {pop : List Bytes → List Bytes × List Bytes} (hpop : ∀ items ≠ [], (pop items).1 ≠ []) :
    (answer (ListCommand.popReply none) (ks.update key pop)).1 = .ok .nullBulk ↔
      ks.live.get? key = none := by
  have hfst : (ks.update key pop).1 = (Slot.update pop (ks.live.get? key)).map Prod.fst :=
    ks.tryAccess_fst key (Slot.update pop)
  unfold answer
  have hslot : Slot.collection? (List Bytes) (ks.live.get? key) = .ok none ↔ _ :=
    Slot.collection?_eq_ok_none_iff
  rw [hfst, ← hslot]
  unfold Slot.update
  cases hfound : Slot.collection? (List Bytes) (ks.live.get? key) with
  | error e => exact iff_of_false nofun nofun
  | ok found =>
    cases found with
    | none => exact iff_of_true rfl rfl
    | some items =>
      have hne : items ≠ [] := by
        rintro rfl
        exact absurd (Slot.isEmpty_of_collection? (hks.get?_live key) hfound) (by decide)
      obtain ⟨first, rest, hfirst⟩ := List.exists_cons_of_ne_nil (hpop items hne)
      refine iff_of_false (fun h => ?_) nofun
      simp only [Except.map, ListCommand.popReply, hfirst] at h
      cases h

end Keyspace

theorem Keyspace.Filled.counting [Glob.Matcher] {ks : Keyspace} (hks : ks.Filled) (key : Bytes)
    (client : Client) :
    ks.Counts (List Bytes) key ((Command.lists (.llen key)).exec ks client).1 ∧
      ks.Counts ByteSet key ((Command.sets (.scard key)).exec ks client).1 ∧
      ks.Counts SortedSet key ((Command.sortedSets (.zcard key)).exec ks client).1 ∧
      ks.Counts (Table Bytes) key ((Command.hashes (.hlen key)).exec ks client).1 := by
  have hpos {β : Type} (items : List β) (h : items.isEmpty = false) : 0 < items.length :=
    List.length_pos_iff.2 (by simpa using h)
  have hmembers (members : ByteSet) (h : Collection.isEmpty members = false) :
      0 < (SetCommand.members (some members)).length := by
    have hlength : (SetCommand.members (some members)).length = members.toList.length :=
      List.length_map _
    rw [hlength]
    exact hpos members.toList h
  exact ⟨hks.counts key rfl fun items h => hpos items h, hks.counts key rfl hmembers,
    hks.counts key rfl fun members h => hpos members.scores.toList h,
    hks.counts key rfl fun fields h => hpos fields.toList h⟩

theorem ListCommand.popHead_ne_nil {items : List Bytes} (h : items ≠ []) :
    (popHead 1 items).1 ≠ [] := by
  obtain ⟨first, rest, rfl⟩ := List.exists_cons_of_ne_nil h
  nofun

theorem ListCommand.popTail_ne_nil {items : List Bytes} (h : items ≠ []) :
    (popTail 1 items).1 ≠ [] := by
  obtain ⟨init, last, rfl⟩ := (List.eq_nil_or_concat items).resolve_left h
  simp [popTail]

/-- Whatever sessions are sent and however the clock moves, no entry holds an empty collection, not
even one that has expired. So a count is positive for the keys that are live, and a pop finds
nothing at those that are not. -/
theorem Server.no_empty_collection [Glob.Matcher] (maxQueued : Nat) (events : List Event) :
    let ks := (({ engine := { maxQueued } } : Server).run events).2.keyspace
    (∀ key, ∀ e ∈ ks.entries.get? key, e.value.isVoid = false) ∧
      ∀ (key : Bytes) (client : Client),
        (ks.Counts (List Bytes) key ((Command.lists (.llen key)).exec ks client).1 ∧
          ks.Counts ByteSet key ((Command.sets (.scard key)).exec ks client).1 ∧
          ks.Counts SortedSet key ((Command.sortedSets (.zcard key)).exec ks client).1 ∧
          ks.Counts (Table Bytes) key ((Command.hashes (.hlen key)).exec ks client).1) ∧
        (((Command.lists (.lpop key none)).exec ks client).1 = .ok .nullBulk ↔
          ks.live.get? key = none) ∧
        (((Command.lists (.rpop key none)).exec ks client).1 = .ok .nullBulk ↔
          ks.live.get? key = none) := by
  intro ks
  have hks : ks.Filled := filled_run maxQueued events
  refine ⟨hks, fun key client => ⟨hks.counting key client, ?_, ?_⟩⟩
  · exact mapError_eq_ok_iff.trans
      (hks.pop_reply_eq_nullBulk_iff key fun _ => ListCommand.popHead_ne_nil)
  · exact mapError_eq_ok_iff.trans
      (hks.pop_reply_eq_nullBulk_iff key fun _ => ListCommand.popTail_ne_nil)

end RespStore
