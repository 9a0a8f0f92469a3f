import RespStore.Proofs.Collections
import RespStore.Proofs.Unchanged

/-! Commands that ask for a value of one type fail with a wrong type exactly where a live key holds
a value of another. -/
namespace RespStore
open Keyspace

namespace Slot

variable {α : Type} {typeName : String} {slot : Slot}

def Typed (typeName : String) (slot : Slot) : Prop := ∃ e ∈ slot, e.value.typeName = typeName

/-- A value of another type than is asked for is there. -/
def Mistyped (typeName : String) (slot : Slot) : Prop := ∃ e ∈ slot, e.value.typeName ≠ typeName

/-- An access that fails with a wrong type exactly where a value of another type is. -/
def Demands (typeName : String) (f : Slot → Except StoreError α) : Prop :=
  ∀ slot, f slot = .error .wrongType ↔ slot.Mistyped typeName

theorem not_mistyped_none : ¬ Mistyped typeName none := nofun

theorem mistyped_some_iff {e : Entry} :
    Mistyped typeName (some e) ↔ e.value.typeName ≠ typeName := by
  simp [Mistyped]

theorem not_typed_none : ¬ Typed typeName none := nofun

theorem typed_some_iff {e : Entry} : Typed typeName (some e) ↔ e.value.typeName = typeName := by
  simp [Typed]

theorem Typed.not_mistyped (h : slot.Typed typeName) : ¬ slot.Mistyped typeName := by
  obtain ⟨e, rfl, htype⟩ := h
  rw [mistyped_some_iff]
  exact fun hne => hne htype

theorem demands_string? : Demands "string" string? := by
  intro slot
  cases slot with
  | none => exact iff_of_false nofun not_mistyped_none
  | some e =>
    obtain ⟨value, deadline⟩ := e
    rw [mistyped_some_iff]
    cases value with
    | string data => exact iff_of_false nofun fun h => h rfl
    | _ => exact iff_of_true rfl (by simp [Value.typeName])

theorem demands_collection? [Collection α] [LawfulCollection α] :
    Demands (Collection.typeName α) (collection? α) := by
  intro slot
  have hother (v : Value) :
      (Collection.ofValue? v : Option α) = none ↔ v.typeName ≠ Collection.typeName α := by
    rw [Ne, ← LawfulCollection.isSome_ofValue?_iff, Option.not_isSome_iff_eq_none]
  rw [collection?_eq_error_iff]
  constructor
  · rintro ⟨-, e, he, hnone⟩
    exact ⟨e, he, (hother e.value).1 hnone⟩
  · rintro ⟨e, he, htype⟩
    exact ⟨rfl, e, he, (hother e.value).2 htype⟩

theorem Demands.of_checked {β : Type} {f : Slot → Except StoreError α}
    {g : Slot → Except StoreError β} (hf : Demands typeName f)
    (herror : ∀ slot e, f slot = .error e → g slot = .error e)
    (hok : ∀ slot a, f slot = .ok a → g slot ≠ .error .wrongType) : Demands typeName g := by
  intro slot
  rw [← hf slot]
  cases hchecked : f slot with
  | error e =>
    rw [herror slot e hchecked, Except.error.injEq, Except.error.injEq]
  | ok a => exact iff_of_false (hok slot a hchecked) nofun

theorem Demands.bind {β : Type} {f : Slot → Except StoreError α}
    {next : Slot → α → Except StoreError β} (hf : Demands typeName f)
    (hnext : ∀ slot a, next slot a ≠ .error .wrongType) :
    Demands typeName fun slot => f slot >>= next slot := by
  refine hf.of_checked (fun slot e h => ?_) fun slot a h => ?_
  · rw [h]
    rfl
  · rw [h]
    exact hnext slot a

theorem fst_update {β : Type} [Collection α] (f : α → β × α) (slot : Slot) :
    (update f slot).map Prod.fst = (collection? α slot).map (Option.map fun c => (f c).1) := by
  unfold update
  cases collection? α slot with
  | error e => rfl
  | ok found => cases found <;> rfl

section Collections
variable {β : Type} [Collection α] [LawfulCollection α]

theorem typed_of_collection? {c : α} (h : collection? α slot = .ok (some c)) :
    slot.Typed (Collection.typeName α) := by
  have hfits : ¬ slot.Mistyped (Collection.typeName α) := by
    rw [← demands_collection?, h]
    nofun
  cases slot with
  | none => cases h
  | some e =>
    rw [mistyped_some_iff, not_not] at hfits
    exact typed_some_iff.2 hfits

theorem demands_upsert (f : α → β × α) : Demands (Collection.typeName α) (upsert f) := by
  refine demands_collection?.of_checked (fun slot e h => ?_) fun slot found h => ?_
  · rw [upsert, h]
  · rw [upsert, h]
    nofun

theorem demands_update (f : α → β × α) : Demands (Collection.typeName α) (update f) := by
  refine demands_collection?.of_checked (fun slot e h => ?_) fun slot found h => ?_
  · rw [update, h]
  · rw [update, h]
    cases found <;> nofun

end Collections

theorem demands_incrBy (range : IntegerRange) (n : Int) : Demands "string" (incrBy range n) := by
  refine demands_string?.of_checked (fun slot e h => ?_) fun slot found h => ?_
  · rw [incrBy, h]
  · rw [incrBy, h]
    dsimp only
    split
    · nofun
    · split <;> nofun

theorem demands_incrByFloat (x : Binary64) : Demands "string" (incrByFloat x) := by
  refine demands_string?.of_checked (fun slot e h => ?_) fun slot found h => ?_
  · rw [incrByFloat, h]
  · rw [incrByFloat, h]
    dsimp only
    split
    · nofun
    · split <;> nofun

end Slot

namespace StringCommand

theorem demands_appendTo (value : Bytes) : Slot.Demands "string" (appendTo value) := by
  refine Slot.demands_string?.bind fun slot found => ?_
  split <;> nofun

theorem demands_setBit (offset : Nat) (bit : Bool) : Slot.Demands "string" (setBit offset bit) :=
  Slot.demands_string?.bind fun _ _ => nofun

theorem demands_getAndDelete : Slot.Demands "string" getAndDelete :=
  Slot.demands_string?.bind fun _ _ => nofun

theorem demands_getAndSet (value : Bytes) : Slot.Demands "string" (getAndSet value) :=
  Slot.demands_string?.bind fun _ _ => nofun

end StringCommand

namespace Keyspace

variable {α : Type} {key : Bytes} {typeName : String}

/-- An operation that fails with a wrong type exactly where a key is live and holds a value of
another type. -/
def DemandsAt (key : Bytes) (typeName : String)
    (op : Keyspace → Except StoreError α × Keyspace) : Prop :=
  ∀ ks : Keyspace, (op ks).1 = .error .wrongType ↔ Slot.Mistyped typeName (ks.live.get? key)

namespace DemandsAt

theorem read {f : Slot → Except StoreError α} (hf : Slot.Demands typeName f) :
    DemandsAt key typeName fun ks => ks.read key f := by
  intro ks
  rw [← hf]
  exact Eq.congr (ks.access_fst key _) rfl

theorem tryAccess {f : Slot → Except StoreError (α × Slot)} (hf : Slot.Demands typeName f) :
    DemandsAt key typeName fun ks => ks.tryAccess key f := by
  intro ks
  rw [← hf, tryAccess_fst]
  exact map_eq_error_iff

theorem answer {op : Keyspace → Except StoreError α × Keyspace} (h : DemandsAt key typeName op)
    (f : α → Frame) : DemandsAt key typeName fun ks => answer f (op ks) :=
  fun ks => map_eq_error_iff.trans (h ks)

end DemandsAt
end Keyspace

namespace StringCommand

/-- The key that a command asks for a string at, if it asks for one. -/
def addressed? : StringCommand → Option Bytes
  | .append key _ | .bitcount key _ | .decr key | .get key | .getbit key _ | .getdel key
  | .getrange key _ _ | .getset key _ | .incr key | .incrby key _ | .incrbyfloat key _
  | .setbit key _ _ | .strlen key => some key
  -- The least number has no opposite, so the command fails before it looks at the key.
  | .decrby key decrement => if decrement = Int64.minValue then none else some key
  | .set key _ options => if options.get then some key else none
  | .mget _ | .mset _ | .psetex _ _ _ | .setex _ _ _ | .setnx _ _ => none

theorem setWith_demandsAt (key value : Bytes) {o : SetOptions} (ho : o.get = true) :
    DemandsAt key "string" fun ks => setWith ks key value o := by
  intro ks
  have hread : DemandsAt key "string" fun ks => ks.getString key := .read Slot.demands_string?
  have hold : oldString key o ks = ks.getString key := by rw [oldString, if_pos ho]
  rw [← hread ks]
  change (setWith ks key value o).1 = _ ↔ (ks.getString key).1 = _
  rw [setWith_eq, hold]
  cases (ks.getString key).1 with
  | error e =>
    simp only [setAfter, Except.error.injEq]
  | ok found => exact iff_of_false nofun nofun

theorem demandsAt {c : StringCommand} {key : Bytes} (h : c.addressed? = some key) :
    DemandsAt key "string" fun ks => c.exec ks := by
  have hread : DemandsAt key "string" fun ks => ks.getString key := .read Slot.demands_string?
  have hincrement (n : Int) : DemandsAt key "string" fun ks => incrementBy ks key n :=
    .answer (.tryAccess (Slot.demands_incrBy _ n)) _
  cases c with
  | append _ value =>
    cases h
    exact .answer (.tryAccess (demands_appendTo value)) _
  | decr _ =>
    cases h
    exact hincrement (-1)
  | decrby _ decrement =>
    have haddressed : (if decrement = Int64.minValue then none else some _) = some key := h
    split at haddressed
    · cases haddressed
    · next hne =>
      cases haddressed
      simp only [exec, if_neg hne]
      exact hincrement (-decrement.toInt)
  | getdel _ =>
    cases h
    exact .answer (.tryAccess demands_getAndDelete) _
  | getset _ value =>
    cases h
    exact .answer (.tryAccess (demands_getAndSet value)) _
  | incr _ =>
    cases h
    exact hincrement 1
  | incrby _ increment =>
    cases h
    exact hincrement increment.toInt
  | incrbyfloat _ increment =>
    cases h
    exact .answer (.tryAccess (Slot.demands_incrByFloat increment)) _
  | set _ value options =>
    have haddressed : (if options.get then some _ else none) = some key := h
    split at haddressed
    · next hget =>
      cases haddressed
      exact setWith_demandsAt key value hget
    · cases haddressed
  | setbit _ offset bit =>
    cases h
    exact .answer (.tryAccess (demands_setBit offset bit)) _
  | mget _ | mset _ | psetex _ _ _ | setex _ _ _ | setnx _ _ => cases h
  | _ =>
    cases h
    exact hread.answer _

end StringCommand

theorem ListCommand.demandsAt {c : ListCommand} (hc : ∀ keys timeout, c ≠ .brpop keys timeout) :
    ∀ key ∈ c.named, DemandsAt key "list" fun ks => c.exec ks := by
  have hread (key : Bytes) : DemandsAt key "list" fun ks => ks.getAs (List Bytes) key :=
    .read Slot.demands_collection?
  have hupsert {β : Type} (key : Bytes) (f : List Bytes → β × List Bytes) :
      DemandsAt key "list" fun ks => ks.upsert key f := .tryAccess (Slot.demands_upsert f)
  have hupdate {β : Type} (key : Bytes) (f : List Bytes → β × List Bytes) :
      DemandsAt key "list" fun ks => ks.update key f := .tryAccess (Slot.demands_update f)
  cases c with
  | brpop keys timeout => exact absurd rfl (hc keys timeout)
  | llen key => exact List.forall_mem_singleton.2 ((hread key).answer _)
  | lpop key count => exact List.forall_mem_singleton.2 ((hupdate key _).answer _)
  | lpush key values => exact List.forall_mem_singleton.2 ((hupsert key _).answer _)
  | lrange key start stop => exact List.forall_mem_singleton.2 ((hread key).answer _)
  | lrem key count element => exact List.forall_mem_singleton.2 ((hupdate key _).answer _)
  | rpop key count => exact List.forall_mem_singleton.2 ((hupdate key _).answer _)
  | rpush key values => exact List.forall_mem_singleton.2 ((hupsert key _).answer _)

theorem SetCommand.demandsAt [Glob.Matcher] (c : SetCommand) :
    ∀ key ∈ c.named, DemandsAt key "set" fun ks => c.exec ks := by
  have hread (key : Bytes) : DemandsAt key "set" fun ks => ks.getAs ByteSet key :=
    .read Slot.demands_collection?
  cases c with
  | sadd key members =>
    exact List.forall_mem_singleton.2 (.answer (.tryAccess (Slot.demands_upsert _)) _)
  | srem key members =>
    exact List.forall_mem_singleton.2 (.answer (.tryAccess (Slot.demands_update _)) _)
  | _ => exact List.forall_mem_singleton.2 ((hread _).answer _)

theorem SortedSetCommand.demandsAt (c : SortedSetCommand) :
    ∀ key ∈ c.named, DemandsAt key "zset" fun ks => c.exec ks := by
  have hread (key : Bytes) : DemandsAt key "zset" fun ks => ks.getAs SortedSet key :=
    .read Slot.demands_collection?
  have hremoved (key : Bytes) (remove : SortedSet → Nat × SortedSet) :
      DemandsAt key "zset" fun ks => removedBy ks key remove :=
    .answer (.tryAccess (Slot.demands_update _)) _
  cases c with
  | zadd key condition changed members =>
    exact List.forall_mem_singleton.2 (.answer (.tryAccess (Slot.demands_upsert _)) _)
  | zrem key members => exact List.forall_mem_singleton.2 (hremoved key _)
  | zremrangebyrank key start stop => exact List.forall_mem_singleton.2 (hremoved key _)
  | zremrangebyscore key min max => exact List.forall_mem_singleton.2 (hremoved key _)
  | _ => exact List.forall_mem_singleton.2 ((hread _).answer _)

theorem HashCommand.demandsAt (c : HashCommand) :
    ∀ key ∈ c.named, DemandsAt key "hash" fun ks => c.exec ks := by
  have hread (key : Bytes) : DemandsAt key "hash" fun ks => ks.getAs (Table Bytes) key :=
    .read Slot.demands_collection?
  have hset (key : Bytes) (bindings : List (Bytes × Bytes)) :
      DemandsAt key "hash" fun ks => setFields ks key bindings :=
    .tryAccess (Slot.demands_upsert _)
  cases c with
  | hdel key fields =>
    exact List.forall_mem_singleton.2 (.answer (.tryAccess (Slot.demands_update _)) _)
  | hmset key bindings => exact List.forall_mem_singleton.2 ((hset key bindings).answer _)
  | hset key bindings => exact List.forall_mem_singleton.2 ((hset key bindings).answer _)
  | _ => exact List.forall_mem_singleton.2 ((hread _).answer _)

namespace ListCommand

variable {ks : Keyspace}

/-- Some key is live and holds no list, and none before it holds one. -/
def Obstructed (ks : Keyspace) (keys : List Bytes) : Prop :=
  ∃ before key after, keys = before ++ key :: after ∧
    Slot.Mistyped "list" (ks.live.get? key) ∧
    ∀ k ∈ before, ¬ Slot.Typed "list" (ks.live.get? k)

theorem not_obstructed_nil : ¬ Obstructed ks [] := by
  rintro ⟨before, key, after, h, -⟩
  cases before <;> cases h

theorem obstructed_cons_iff {key : Bytes} {rest : List Bytes} : Obstructed ks (key :: rest) ↔
    Slot.Mistyped "list" (ks.live.get? key) ∨
      ¬ Slot.Typed "list" (ks.live.get? key) ∧ Obstructed ks rest := by
  constructor
  · rintro ⟨before, k, after, heq, hmistyped, hbefore⟩
    cases before with
    | nil =>
      cases heq
      exact .inl hmistyped
    | cons first before =>
      cases heq
      rw [List.forall_mem_cons] at hbefore
      exact .inr ⟨hbefore.1, before, k, after, rfl, hmistyped, hbefore.2⟩
  · rintro (hmistyped | ⟨hkey, before, k, after, rfl, hmistyped, hbefore⟩)
    · exact ⟨[], key, rest, rfl, hmistyped, nofun⟩
    · exact ⟨key :: before, k, after, rfl, hmistyped, List.forall_mem_cons.2 ⟨hkey, hbefore⟩⟩

theorem slot_of_update_popTail (h : ks.Filled) (key : Bytes) :
    (ks.update key (popTail 1)).1 = .error .wrongType ∧
        Slot.Mistyped "list" (ks.live.get? key) ∨
      (ks.update key (popTail 1)).1 = .ok none ∧ ks.live.get? key = none ∧
        ks.Sheds (ks.update key (popTail 1)).2 ∨
      ∃ value, (ks.update key (popTail 1)).1 = .ok (some [value]) ∧
        Slot.Typed "list" (ks.live.get? key) := by
  have hfst : (ks.update key (popTail 1)).1 =
      (Slot.collection? (List Bytes) (ks.live.get? key)).map _ :=
    (ks.tryAccess_fst key _).trans (Slot.fst_update (popTail 1) (ks.live.get? key))
  rcases update_popTail h key with ⟨e, hfailed⟩ | ⟨hnone, hsheds⟩ | ⟨value, hpopped⟩
  · have hcheck := map_eq_error_iff.1 (hfst.symm.trans hfailed)
    obtain ⟨rfl, -⟩ := Slot.collection?_eq_error_iff.1 hcheck
    exact .inl ⟨hfailed, (Slot.demands_collection? _).1 hcheck⟩
  · obtain ⟨found, hfound, hmap⟩ := map_eq_ok_iff.1 (hfst.symm.trans hnone)
    rw [Option.map_eq_none_iff.1 hmap] at hfound
    exact .inr (.inl ⟨hnone, Slot.collection?_eq_ok_none_iff.1 hfound, hsheds⟩)
  · obtain ⟨found, hfound, hmap⟩ := map_eq_ok_iff.1 (hfst.symm.trans hpopped)
    obtain ⟨items, rfl, -⟩ := Option.map_eq_some_iff.1 hmap
    exact .inr (.inr ⟨value, hpopped, Slot.typed_of_collection? hfound⟩)

/-- By induction on the keys: the walk goes on only from keys that are not live, and leaves what is
live as it is until it ends. -/
theorem popFirst_eq_wrongType_iff (keys : List Bytes) {ks : Keyspace} (h : ks.Filled) :
    (popFirst ks keys).1 = .error .wrongType ↔ Obstructed ks keys := by
  induction keys generalizing ks with
  | nil => exact iff_of_false nofun not_obstructed_nil
  | cons key rest ih =>
    rw [popFirst_cons, obstructed_cons_iff]
    rcases slot_of_update_popTail h key with
      ⟨hfailed, hmistyped⟩ | ⟨hnone, habsent, hsheds⟩ | ⟨value, hpopped, htyped⟩
    · rw [hfailed]
      exact iff_of_true rfl (.inl hmistyped)
    · have hrest := ih (filled_update_popTail h key)
      unfold Obstructed at hrest ⊢
      rw [hsheds.live] at hrest
      rw [hnone, habsent]
      simp only [Slot.not_mistyped_none, Slot.not_typed_none, not_false_eq_true, true_and,
        false_or]
      exact hrest
    · rw [hpopped]
      refine iff_of_false nofun ?_
      rintro (hmistyped | ⟨hnot, -⟩)
      · exact htyped.not_mistyped hmistyped
      · exact hnot htyped

end ListCommand

namespace Keyspace

theorem forEach_read {α : Type} (f : Slot → α) (keys : List Bytes) (ks : Keyspace) :
    (ks.forEach (fun ks key => ks.read key f) keys).1 =
      keys.map fun key => f (ks.live.get? key) := by
  induction keys generalizing ks with
  | nil => rfl
  | cons key rest ih =>
    have hread : Accesses Slot.Untouched [key] fun ks => ks.read key f :=
      .read List.mem_cons_self fun _ => f
    have hhead : (ks.read key f).1 = f (ks.live.get? key) := ks.access_fst key _
    have hrest := ih (ks.read key f).2
    rw [(hread.sheds ks).live] at hrest
    rw [List.map_cons, ← hhead, ← hrest]
    rfl

end Keyspace

namespace StringCommand

def found (slot : Slot) : Frame := .optionalBulk ((Slot.string? slot).toOption.bind id)

theorem found_eq_nullBulk_iff (slot : Slot) : found slot = .nullBulk ↔ ¬ slot.Typed "string" := by
  cases slot with
  | none => exact iff_of_true rfl Slot.not_typed_none
  | some e =>
    obtain ⟨value, deadline⟩ := e
    rw [Slot.typed_some_iff]
    cases value with
    | string data => exact iff_of_false nofun fun h => h rfl
    | _ => exact iff_of_true rfl (by simp [Value.typeName])

theorem mget_fst (ks : Keyspace) (keys : List Bytes) :
    (exec ks (.mget keys)).1 = .ok (.array (keys.map fun key => found (ks.live.get? key))) := by
  have hread := forEach_read Slot.string? keys ks
  change Except.ok (Frame.array (List.map _ (ks.forEach Keyspace.getString keys).1)) = _
  unfold Keyspace.getString
  rw [hread, List.map_map]
  rfl

end StringCommand

namespace Command

/-- The command asks for a value of the type at the key. -/
def Addresses (key : Bytes) (typeName : String) : Command → Prop
  | .strings c => c.addressed? = some key ∧ typeName = "string"
  | .lists (.brpop _ _) => False
  | .lists c => key ∈ c.named ∧ typeName = "list"
  | .sets c => key ∈ c.named ∧ typeName = "set"
  | .sortedSets c => key ∈ c.named ∧ typeName = "zset"
  | .hashes c => key ∈ c.named ∧ typeName = "hash"
  | .keys _ | .server _ | .transaction _ => False

section
variable [Glob.Matcher]

theorem Addresses.wrongType_iff {c : Command} {key : Bytes} {typeName : String}
    (h : c.Addresses key typeName) (ks : Keyspace) (client : Client) :
    (c.exec ks client).1 = .error (.store .wrongType) ↔
      Slot.Mistyped typeName (ks.live.get? key) := by
  have hstore {op : Keyspace → Outcome} (hop : DemandsAt key typeName op) :
      (op ks).1.mapError CommandError.store = .error (.store .wrongType) ↔
        Slot.Mistyped typeName (ks.live.get? key) := by
    rw [← hop ks, mapError_eq_error_iff]
    simp only [CommandError.store.injEq, exists_eq_right]
  cases c with
  | strings c =>
    obtain ⟨haddressed, rfl⟩ := h
    exact hstore (StringCommand.demandsAt haddressed)
  | lists c =>
    cases c with
    | brpop keys timeout => exact h.elim
    | _ =>
      obtain ⟨hkey, rfl⟩ := h
      exact hstore (ListCommand.demandsAt (by nofun) key hkey)
  | sets c =>
    obtain ⟨hkey, rfl⟩ := h
    exact hstore (c.demandsAt key hkey)
  | sortedSets c =>
    obtain ⟨hkey, rfl⟩ := h
    exact hstore (c.demandsAt key hkey)
  | hashes c =>
    obtain ⟨hkey, rfl⟩ := h
    exact hstore (c.demandsAt key hkey)
  | keys _ => exact h.elim
  | server _ => exact h.elim
  | transaction _ => exact h.elim

/-- Wherever a server gets to, a command that asks for a value of one type at a key fails with a
wrong type exactly where the key is live with a value of another, and never because of a key that
has expired. A walk over lists fails so exactly where it meets such a key before a list, and a
request for many strings never fails: it finds nothing exactly at the keys that are not live
strings. -/
theorem wrongType_iff_mistyped {ks : Keyspace} (hks : ks.Reachable) (client : Client) :
    (∀ (c : Command) key typeName, c.Addresses key typeName →
      ((c.exec ks client).1 = .error (.store .wrongType) ↔
        Slot.Mistyped typeName (ks.live.get? key))) ∧
    (∀ keys timeout,
      ((Command.lists (.brpop keys timeout)).exec ks client).1 = .error (.store .wrongType) ↔
        ListCommand.Obstructed ks keys) ∧
    (∀ keys, ∃ frames,
      ((Command.strings (.mget keys)).exec ks client).1 = .ok (.array frames) ∧
        List.Forall₂ (fun key frame =>
          frame = .nullBulk ↔ ¬ Slot.Typed "string" (ks.live.get? key)) keys frames) ∧
    ∀ (c : Command) key typeName e, c.Addresses key typeName → ks.entries.get? key = some e →
      e.isExpired ks.now = true → (c.exec ks client).1 ≠ .error (.store .wrongType) := by
  refine ⟨fun c key typeName h => h.wrongType_iff ks client, fun keys timeout => ?_,
    fun keys => ?_, fun c key typeName e h he hexpired => ?_⟩
  · have hwalk := ListCommand.popFirst_eq_wrongType_iff keys hks.filled
    refine mapError_eq_error_iff.trans ?_
    simp only [CommandError.store.injEq, exists_eq_right]
    exact hwalk
  · refine ⟨keys.map fun key => StringCommand.found (ks.live.get? key), ?_, ?_⟩
    · exact congrArg (Except.mapError CommandError.store) (StringCommand.mget_fst ks keys)
    · rw [List.forall₂_map_right_iff, List.forall₂_same]
      exact fun key _ => StringCommand.found_eq_nullBulk_iff (ks.live.get? key)
  · have hdead : ks.live.get? key = none := by
      rw [get?_live, he, Option.filter_some, hexpired]
      rfl
    rw [Ne, h.wrongType_iff ks client, hdead]
    exact Slot.not_mistyped_none

end

/-- An expired string is no list to count the elements of or to walk past, and a live one is in the
way of both. -/
theorem length_fails_at_live_string :
    let client : Client := { id := 1 }
    let frame (words : List String) : Frame := .bulkArray (words.map Bytes.ofString)
    let setA : Command := .strings (.psetex [97] 10 [120])
    let setB : Command := .strings (.set [98] [121] {})
    let ks := (setB.exec (setA.exec {} client).2.1 client).2.1.advance 10
    Command.ofFrame (frame ["PSETEX", "a", "10", "x"]) = .ok setA ∧
      Command.ofFrame (frame ["SET", "b", "y"]) = .ok setB ∧ ks.Reachable ∧
      (Command.lists (.llen [97])).Addresses [97] "list" ∧
      ((Command.lists (.llen [97])).exec ks client).1 ≠ .error (.store .wrongType) ∧
      (Command.lists (.llen [98])).Addresses [98] "list" ∧
      ((Command.lists (.llen [98])).exec ks client).1 = .error (.store .wrongType) ∧
      ((Command.lists (.brpop [[97], [98]] 0)).exec ks client).1 = .error (.store .wrongType) := by
  intro client frame setA setB ks
  have hsetA : Command.ofFrame (frame ["PSETEX", "a", "10", "x"]) = .ok setA := rfl
  have hsetB : Command.ofFrame (frame ["SET", "b", "y"]) = .ok setB := rfl
  have hks : ks.Reachable := ((Reachable.start.exec hsetA client).exec hsetB client).advance 10
  obtain ⟨haddressed, hwalk, -, hexpired⟩ := wrongType_iff_mistyped hks client
  have ha : (Command.lists (.llen [97])).Addresses [97] "list" := ⟨List.mem_cons_self, rfl⟩
  have hb : (Command.lists (.llen [98])).Addresses [98] "list" := ⟨List.mem_cons_self, rfl⟩
  have hstring : Slot.Mistyped "list" (ks.live.get? [98]) :=
    ⟨⟨.string [121], none⟩, rfl, by decide⟩
  have hobstructed : ListCommand.Obstructed ks [[97], [98]] :=
    ListCommand.obstructed_cons_iff.2
      (.inr ⟨Slot.not_typed_none, ListCommand.obstructed_cons_iff.2 (.inl hstring)⟩)
  exact ⟨hsetA, hsetB, hks, ha, hexpired _ _ _ ⟨.string [120], some 10⟩ ha rfl rfl, hb,
    (haddressed _ _ _ hb).2 hstring, (hwalk [[97], [98]] 0).2 hobstructed⟩

end Command
end RespStore
