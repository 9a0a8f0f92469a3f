import RespStore.Proofs.Access
import RespStore.Proofs.Table

/-! What an access to a keyspace does: it finds what is live, and only its own key changes. -/
namespace RespStore.Keyspace

variable {α : Type} (ks : Keyspace) (key : Bytes)

theorem get?_live : ks.live.get? key =
    (ks.entries.get? key).filter fun e => !e.isExpired ks.now :=
  Table.get?_filter ks.entries _ key

theorem liveAt_get?_live : Slot.LiveAt ks.now (ks.live.get? key) := by
  cases h : ks.live.get? key with
  | none => exact Slot.liveAt_none
  | some e =>
    rw [get?_live, Option.filter_eq_some_iff] at h
    exact Slot.liveAt_some_iff.2 (by simpa using h.2)

theorem get?_evict : (ks.evict key).2.entries.get? key = ks.live.get? key := by
  rw [get?_live]
  unfold evict
  cases h : ks.entries.get? key with
  | none => simp [h]
  | some e => cases he : e.isExpired ks.now <;> simp [h, he, Table.get?_erase, Option.filter]

theorem set_evict (slot : Slot) :
    (ks.evict key).2.entries.set key slot = ks.entries.set key slot := by
  unfold evict
  split
  · exact Table.set_erase ks.entries key slot
  · rfl

def held : Option Value := (ks.live.get? key).map (·.value)

theorem access_fst (f : Slot → α × Slot) :
    (ks.access key f).1 = (f (ks.live.get? key)).1 := by
  rw [← get?_evict]
  rfl

theorem tryAccess_fst (f : Slot → Except StoreError (α × Slot)) :
    (ks.tryAccess key f).1 = (f (ks.live.get? key)).map Prod.fst := by
  refine (ks.access_fst key _).trans ?_
  cases f (ks.live.get? key) <;> rfl

theorem entries_access (f : Slot → α × Slot) :
    (ks.access key f).2.entries = ks.entries.set key (f (ks.live.get? key)).2 := by
  rw [← get?_evict, ← set_evict]
  rfl

@[simp] theorem now_access (f : Slot → α × Slot) : (ks.access key f).2.now = ks.now := by
  unfold access evict
  split <;> rfl

@[simp] theorem now_tryAccess (f : Slot → Except StoreError (α × Slot)) :
    (ks.tryAccess key f).2.now = ks.now := now_access ks key _

theorem stats_access (f : Slot → α × Slot) :
    ∃ n, (ks.access key f).2.stats = { ks.stats with expiredKeys := n } := by
  unfold access evict
  split
  · exact ⟨_, rfl⟩
  · exact ⟨ks.stats.expiredKeys, rfl⟩

/-- By induction on the accesses that an operation is made of, none of which moves the clock. -/
theorem Accesses.now {R : Nat → Slot → Slot → Prop} {keys : List Bytes}
    {op : Keyspace → α × Keyspace} (h : Accesses R keys op) (ks : Keyspace) :
    (op ks).2.now = ks.now := by
  induction h generalizing ks with
  | done a => rfl
  | access hkey f hf => exact ks.now_access _ _
  | put hkey entry hentry => rfl
  | andThen _ _ ihop ihnext => exact (ihnext _ _).trans (ihop ks)

theorem Accesses.stats {R : Nat → Slot → Slot → Prop} {keys : List Bytes}
    {op : Keyspace → α × Keyspace} (h : Accesses R keys op) (ks : Keyspace) :
    ∃ n, (op ks).2.stats = { ks.stats with expiredKeys := n } := by
  induction h generalizing ks with
  | done a => exact ⟨ks.stats.expiredKeys, rfl⟩
  | access hkey f hf => exact ks.stats_access _ _
  | put hkey entry hentry => exact ⟨ks.stats.expiredKeys, rfl⟩
  | andThen _ _ ihop ihnext =>
    obtain ⟨first, hfirst⟩ := ihop ks
    obtain ⟨last, hlast⟩ := ihnext _ _
    refine ⟨last, ?_⟩
    rw [hlast, hfirst]

/-- As the clock moves, what is live stays live until it expires. -/
theorem get?_live_advance (millis : Nat) : (ks.advance millis).live.get? key =
    (ks.live.get? key).filter fun e => !e.isExpired (ks.now + millis) := by
  rw [get?_live, get?_live, Option.filter_filter]
  have hmono (e : Entry) : (!e.isExpired ks.now && !e.isExpired (ks.now + millis)) =
      !e.isExpired (ks.now + millis) := by
    cases hexpired : e.isExpired ks.now with
    | false => rfl
    | true => rw [Entry.isExpired_mono (Nat.le_add_right _ millis) hexpired]; rfl
  simp only [hmono]
  rfl

theorem live_of_entries_set {ks ks' : Keyspace} {key : Bytes} {slot : Slot}
    (hnow : ks'.now = ks.now) (hentries : ks'.entries = ks.entries.set key slot)
    (hslot : Slot.LiveAt ks.now slot) : ks'.live = ks.live.set key slot := by
  unfold live
  rw [hnow, hentries]
  refine Table.filter_set ks.entries _ key slot fun e he => ?_
  obtain rfl : slot = some e := he
  simpa using Slot.liveAt_some_iff.1 hslot

theorem get?_live_of_entries_set {ks ks' : Keyspace} {key : Bytes} {slot : Slot}
    (hnow : ks'.now = ks.now) (hentries : ks'.entries = ks.entries.set key slot) (k : Bytes) :
    ks'.live.get? k = if k = key then slot.filter fun e => !e.isExpired ks.now
      else ks.live.get? k := by
  rw [get?_live, hnow, hentries, Table.get?_set]
  split
  · rfl
  · exact (ks.get?_live k).symm

theorem get?_live_access (f : Slot → α × Slot) (k : Bytes) : (ks.access key f).2.live.get? k =
    if k = key then (f (ks.live.get? key)).2.filter fun e => !e.isExpired ks.now
      else ks.live.get? k :=
  get?_live_of_entries_set (ks.now_access key f) (ks.entries_access key f) k

theorem tryAccess_of_ok {f : Slot → Except StoreError (α × Slot)} {result : α} {left : Slot}
    (hf : f (ks.live.get? key) = .ok (result, left)) (hleft : Slot.LiveAt ks.now left) :
    (ks.tryAccess key f).1 = .ok result ∧
      (ks.tryAccess key f).2.live = ks.live.set key left := by
  have hentries : (ks.tryAccess key f).2.entries = ks.entries.set key left := by
    unfold tryAccess
    rw [entries_access, hf]
  constructor
  · rw [tryAccess_fst, hf]
    rfl
  · exact live_of_entries_set (now_access _ _ _) hentries hleft

theorem string?_of_held {found : Option Bytes} (h : ks.held key = found.map .string) :
    Slot.string? (ks.live.get? key) = .ok found := by
  unfold held at h
  cases hslot : ks.live.get? key with
  | none =>
    rw [hslot] at h
    rw [Option.map_eq_none_iff.1 h.symm]
    rfl
  | some e =>
    obtain ⟨value, deadline⟩ := e
    rw [hslot] at h
    obtain ⟨data, rfl, rfl⟩ := Option.map_eq_some_iff.1 h.symm
    rfl

theorem getString_of_held {found : Option Bytes} (h : ks.held key = found.map .string) :
    (ks.getString key).1 = .ok found :=
  (ks.access_fst key _).trans (ks.string?_of_held key h)

end RespStore.Keyspace
