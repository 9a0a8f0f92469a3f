import RespStore.Proofs.Lifetime

/-! Operations on one key as functions of the instant and of what is live under it. -/
namespace RespStore
open Keyspace

namespace Keyspace

variable {α β : Type} {key : Bytes}

/-- An operation gives and leaves live under a key what a function of the instant and of what it
finds live there does, and changes nothing else that is live. -/
structure Turns (key : Bytes) (op : Keyspace → α × Keyspace) (f : Nat → Slot → α × Slot) :
    Prop where
  result : ∀ ks, (op ks).1 = (f ks.now (ks.live.get? key)).1
  now : ∀ ks, (op ks).2.now = ks.now
  live : ∀ ks, (op ks).2.live = ks.live.set key (f ks.now (ks.live.get? key)).2

namespace Turns

variable {op : Keyspace → α × Keyspace} {f : Nat → Slot → α × Slot}

theorem get?_live (h : Turns key op f) (ks : Keyspace) :
    (op ks).2.live.get? key = (f ks.now (ks.live.get? key)).2 := by
  rw [h.live, Table.get?_set, if_pos rfl]

theorem congr {f' : Nat → Slot → α × Slot} (h : Turns key op f)
    (hf : ∀ now slot, f now slot = f' now slot) : Turns key op f' := by
  have heq : f = f' := funext fun now => funext (hf now)
  rwa [← heq]

theorem done (a : α) : Turns key (fun ks => (a, ks)) fun _ slot => (a, slot) where
  result _ := rfl
  now _ := rfl
  live _ := (Table.set_of_get?_eq rfl).symm

theorem access {f : Nat → Slot → α × Slot}
    (hf : ∀ {now slot}, Slot.LiveAt now slot → Slot.LiveAt now (f now slot).2) :
    Turns key (fun ks => ks.access key (f ks.now)) f where
  result ks := ks.access_fst key _
  now ks := ks.now_access key _
  live ks := live_of_entries_set (ks.now_access key _) (ks.entries_access key _)
    (hf (ks.liveAt_get?_live key))

theorem read (f : Nat → Slot → α) :
    Turns key (fun ks => ks.read key (f ks.now)) fun now slot => (f now slot, slot) :=
  access (f := fun now slot => (f now slot, slot)) id

theorem tryAccess {f : Slot → Except StoreError (α × Slot)}
    (hf : ∀ {now slot result left},
      f slot = .ok (result, left) → Slot.Change (0 < ·) now slot left) :
    Turns key (fun ks => ks.tryAccess key f) fun _ => Accesses.tried f := by
  refine access (f := fun _ => Accesses.tried f) fun {now slot} hslot => ?_
  unfold Accesses.tried
  split
  · next hok => exact (hf hok).liveAt hslot
  · exact hslot

theorem put (entry : Nat → Entry) (hentry : ∀ now, Slot.LiveAt now (some (entry now))) :
    Turns key (fun ks => ((), ks.put key (entry ks.now))) fun now _ => ((), some (entry now)) where
  result _ := rfl
  now _ := rfl
  live ks := live_of_entries_set rfl rfl (hentry ks.now)

theorem andThen {next : α → Keyspace → β × Keyspace} {g : α → Nat → Slot → β × Slot}
    (h : Turns key op f) (hnext : ∀ a, Turns key (next a) (g a)) :
    Turns key (fun ks => next (op ks).1 (op ks).2)
      fun now slot => g (f now slot).1 now (f now slot).2 where
  result ks := by rw [(hnext _).result, h.now, h.get?_live, h.result]
  now ks := by rw [(hnext _).now, h.now]
  live ks := by rw [(hnext _).live, h.now, h.get?_live, h.live, h.result, Table.set_set]

theorem update {γ : Type} [Collection γ] [LawfulCollection γ] (key : Bytes) (f : γ → α × γ) :
    Turns key (fun ks => ks.update key f) fun _ => Accesses.tried (Slot.update f) :=
  tryAccess fun hf => .edit (Slot.edit_of_update hf)

theorem upsert {γ : Type} [Collection γ] [LawfulCollection γ] (key : Bytes) (f : γ → α × γ) :
    Turns key (fun ks => ks.upsert key f) fun _ => Accesses.tried (Slot.upsert f) :=
  tryAccess fun hf => .edit (Slot.edit_of_upsert hf)

theorem map (h : Turns key op f) (g : α → β) :
    Turns key (fun ks => (g (op ks).1, (op ks).2))
      fun now slot => (g (f now slot).1, (f now slot).2) :=
  h.andThen fun a => done (g a)

theorem answer {op : Keyspace → Except StoreError α × Keyspace}
    {f : Nat → Slot → Except StoreError α × Slot} (h : Turns key op f) (g : α → Frame) :
    Turns key (fun ks => answer g (op ks))
      fun now slot => ((f now slot).1.map g, (f now slot).2) :=
  h.map (Except.map g)

end Turns
end Keyspace

namespace KeyCommand

/-- Seconds in milliseconds, up to the ends of the 64-bit range. -/
theorem secondsToMillis_eq (seconds : Int64) :
    secondsToMillis seconds = max (-2 ^ 63) (min (1000 * seconds.toInt) (2 ^ 63 - 1)) := by
  have hmin : Int64.minValue.toInt = -2 ^ 63 := by decide
  have hmax : Int64.maxValue.toInt = 2 ^ 63 - 1 := by decide
  rw [secondsToMillis, hmin, hmax, Int.mul_comm]

def expireSlot (millis : Int) (now : Nat) (slot : Slot) : Bool × Slot :=
  if millis ≤ 0 then (slot.isSome, none) else Slot.expire (deadlineAfter now millis.toNat) slot

theorem expireSlot_none (millis : Int) (now : Nat) :
    expireSlot millis now none = (false, none) := by
  unfold expireSlot
  split <;> rfl

theorem remove_turns (key : Bytes) :
    Turns key (fun ks => ks.remove key) fun _ slot => (slot.map (·.value), none) :=
  .access (f := fun _ slot => (slot.map (·.value), none)) fun _ => Slot.liveAt_none

theorem del_turns [Glob.Matcher] (key : Bytes) :
    Turns key (fun ks => exec ks (.del [key])) fun _ slot => (.flag slot.isSome, none) := by
  have hremoved := (remove_turns key).map
    fun removed : Option Value => Frame.count ([removed].countP (·.isSome))
  refine hremoved.congr fun now slot => ?_
  cases slot with
  | none => rfl
  | some e => rfl

theorem expireAfter_turns (key : Bytes) (millis : Int) :
    Turns key (fun ks => expireAfter ks key millis) (expireSlot millis) := by
  by_cases hpos : millis ≤ 0
  · simp only [expireAfter, hpos, if_true]
    have hremoved := (remove_turns key).map Option.isSome
    exact hremoved.congr fun now slot => by rw [expireSlot, if_pos hpos, Option.isSome_map]
  · have hmillis : 0 < millis.toNat := by omega
    have hexpired : Turns key (fun ks => ks.expire key millis.toNat) fun now =>
        Slot.expire (deadlineAfter now millis.toNat) :=
      .access (f := fun now => Slot.expire (deadlineAfter now millis.toNat))
        fun {now slot} => (Slot.admitsChanges_change.expire slot hmillis).liveAt
    simp only [expireAfter, hpos, if_false]
    exact hexpired.congr fun now slot => by rw [expireSlot, if_neg hpos]

theorem persist_turns (key : Bytes) : Turns key (fun ks => ks.persist key) fun _ => Slot.persist :=
  .access (f := fun _ => Slot.persist)
    fun {_ slot} => (Slot.admitsChanges_change.persist slot).liveAt

end KeyCommand

namespace StringCommand

variable {key value : Bytes}

theorem getString_turns (key : Bytes) :
    Turns key (fun ks => ks.getString key) fun _ slot => (Slot.string? slot, slot) :=
  .read fun _ => Slot.string?

theorem getset_turns (key value : Bytes) : Turns key (fun ks => ks.tryAccess key (getAndSet value))
    fun _ => Accesses.tried (getAndSet value) := by
  refine .tryAccess fun hf => ?_
  obtain ⟨found, -, hf⟩ := bind_eq_ok_iff.1 hf
  cases hf
  exact .write _ value (.inl rfl)

theorem getdel_turns (key : Bytes) : Turns key (fun ks => ks.tryAccess key getAndDelete)
    fun _ => Accesses.tried getAndDelete :=
  .tryAccess fun hf => .edit (edit_of_getAndDelete hf)

theorem setnx_turns (key value : Bytes) :
    Turns key (fun ks => ks.access key (setIfAbsent value)) fun _ => setIfAbsent value := by
  refine .access (f := fun _ => setIfAbsent value) fun {now slot} hslot => ?_
  cases slot with
  | none => exact nofun
  | some e => exact hslot

theorem incrementBy_turns (key : Bytes) (n : Int) :
    Turns key (fun ks => ks.incrBy .int64 key n) fun _ => Accesses.tried (Slot.incrBy .int64 n) :=
  .tryAccess fun hf => .edit (Slot.edit_of_incrBy hf)

theorem setWithTtl_turns {ttl : Nat} (httl : 0 < ttl) (key value : Bytes) :
    Turns key (fun ks => ((), ks.setWithTtl key (.string value) ttl))
      fun now _ => ((), some ⟨.string value, deadlineAfter now ttl⟩) := by
  refine .put (fun now => ⟨.string value, deadlineAfter now ttl⟩) fun now => ?_
  have hstated : Slot.Stated (0 < ·) now (deadlineAfter now ttl) := .inr ⟨ttl, httl, rfl⟩
  exact hstated.lt

theorem write_turns {o : SetOptions} (ho : o.WellTimed) (key value : Bytes) :
    Turns key (fun ks => ((), write ks key value o.expiry))
      fun now slot => ((), some ⟨.string value, o.deadlineOver now slot⟩) := by
  obtain ⟨condition, expiry, get⟩ := o
  rcases expiry with _ | ⟨millis⟩ | _
  · exact .put (fun _ => ⟨.string value, none⟩) fun _ _ => nofun
  · exact setWithTtl_turns (ho millis rfl) key value
  · exact .access (f := fun _ slot => ((), some (Slot.overwrite slot (.string value)))) id

def holdsFor (o : SetOptions) (slot : Slot) : Bool :=
  match o.condition with
  | none => true
  | some condition => slot.isSome == (condition == SetCondition.ifPresent)

theorem conditionHolds_turns (key : Bytes) (o : SetOptions) :
    Turns key (conditionHolds key o) fun _ slot => (holdsFor o slot, slot) := by
  obtain ⟨_ | condition, expiry, get⟩ := o
  · exact .done true
  · exact (Turns.read fun _ slot => slot.isSome).map (· == (condition == SetCondition.ifPresent))

def askedFor (o : SetOptions) (slot : Slot) : Except StoreError (Option Bytes) :=
  if o.get then Slot.string? slot else .ok none

theorem oldString_turns (key : Bytes) (o : SetOptions) :
    Turns key (oldString key o) fun _ slot => (askedFor o slot, slot) := by
  obtain ⟨condition, expiry, _ | _⟩ := o
  · exact .done (Except.ok none)
  · exact getString_turns key

/-- What is replied to SET, and left by it, where a slot is found. -/
def setSlot (value : Bytes) (o : SetOptions) (now : Nat) (slot : Slot) :
    Except StoreError Frame × Slot :=
  match askedFor o slot with
  | .error e => (.error e, slot)
  | .ok old =>
    (.ok (if o.get then .optionalBulk old else if holdsFor o slot then .ok else .nullBulk),
      if holdsFor o slot then some ⟨.string value, o.deadlineOver now slot⟩ else slot)

theorem setWith_turns {o : SetOptions} (ho : o.WellTimed) (key value : Bytes) :
    Turns key (fun ks => setWith ks key value o) (setSlot value o) := by
  have hwrite (holds : Bool) (reply : Except StoreError Frame) :
      Turns key (fun ks => (reply, if holds then write ks key value o.expiry else ks))
        fun now slot => (reply, if holds then some ⟨.string value, o.deadlineOver now slot⟩
          else slot) := by
    cases holds with
    | false => exact .done reply
    | true => exact (write_turns ho key value).map fun _ => reply
  have hafter (old : Except StoreError (Option Bytes)) :
      Turns key (setAfter key value o old) fun now slot =>
        match old with
        | .error e => (.error e, slot)
        | .ok old =>
          (.ok (if o.get then .optionalBulk old else if holdsFor o slot then .ok else .nullBulk),
            if holdsFor o slot then some ⟨.string value, o.deadlineOver now slot⟩ else slot) := by
    cases old with
    | error e => exact .done (Except.error e)
    | ok old =>
      exact (conditionHolds_turns key o).andThen fun holds => hwrite holds
        (.ok (if o.get then .optionalBulk old else if holds then .ok else .nullBulk))
  simp only [setWith_eq]
  exact (oldString_turns key o).andThen hafter

end StringCommand
end RespStore
