import RespStore.Command
import RespStore.Proofs.Access
import RespStore.Result

/-! The keys that a command names, and the accesses that its execution is made of. -/
namespace RespStore
open Keyspace

namespace Keyspace

variable {R : Nat → Slot → Slot → Prop} {keys : List Bytes} {α : Type}
  {op : Keyspace → Except StoreError α × Keyspace}

theorem Accesses.answer (h : Accesses R keys op) (f : α → Frame) :
    Accesses R keys fun ks => answer f (op ks) :=
  h.map (Except.map f)

theorem Attempts.answer (h : Attempts R keys op) (f : α → Frame) :
    Attempts R keys fun ks => answer f (op ks) :=
  h.map f

end Keyspace

namespace KeyCommand

def named : KeyCommand → List Bytes
  | .del targets | .existing targets => targets
  | .expire key _ | .persist key | .pexpire key _ | .pttl key | .ttl key | .typeOf key => [key]
  | .keys _ => []

def onlyReads : KeyCommand → Bool
  | .existing _ | .keys _ | .pttl _ | .ttl _ | .typeOf _ => true
  | .del _ | .expire _ _ | .persist _ | .pexpire _ _ => false

variable [Glob.Matcher]

theorem reads_accesses (c : KeyCommand) (hc : ∀ pattern, c ≠ .keys pattern)
    (hreads : c.onlyReads = true) : Accesses Slot.Untouched c.named fun ks => c.exec ks := by
  have hleft (key : Bytes) : Accesses Slot.Untouched [key] fun ks => ks.ttl key :=
    .read List.mem_cons_self Slot.ttl
  cases c with
  | existing targets =>
    have hfound : Accesses Slot.Untouched targets fun ks => ks.forEach Keyspace.exists? targets :=
      .forEach fun key hkey => .read hkey fun _ slot => slot.isSome
    exact hfound.map fun found => Frame.count (found.countP id)
  | keys pattern => exact absurd rfl (hc pattern)
  | pttl key => exact (hleft key).map (ttlReply id)
  | ttl key => exact (hleft key).map (ttlReply fun ms => (ms + 500) / 1000)
  | typeOf key =>
    have hvalue : Accesses Slot.Untouched [key] fun ks => ks.get key :=
      .read List.mem_cons_self fun _ slot => slot.map (·.value)
    exact hvalue.map fun value => Frame.simple (value.elim "none" Value.typeName)
  | _ => cases hreads

section
variable {R : Nat → Slot → Slot → Prop} (hR : Slot.AdmitsChanges (0 < ·) R)
include hR

omit [Glob.Matcher] in
theorem expireAfter_accesses (key : Bytes) (millis : Int) :
    Accesses R [key] fun ks => expireAfter ks key millis := by
  unfold expireAfter
  split
  · exact .map (.remove List.mem_cons_self hR.clear) Option.isSome
  · next hpos =>
    have ht : 0 < millis.toNat := by omega
    exact .access List.mem_cons_self (fun now => Slot.expire (deadlineAfter now millis.toNat))
      fun _ slot => hR.expire slot ht

theorem accesses_of (c : KeyCommand) (hc : ∀ pattern, c ≠ .keys pattern) :
    Accesses R c.named fun ks => c.exec ks := by
  by_cases hreads : c.onlyReads = true
  · exact (c.reads_accesses hc hreads).of_untouched hR.keep
  cases c with
  | del targets =>
    have hremoved : Accesses R targets fun ks => ks.forEach Keyspace.remove targets :=
      .forEach fun key hkey => .remove hkey hR.clear
    exact hremoved.map fun removed => Frame.count (removed.countP (·.isSome))
  | expire key seconds => exact .map (expireAfter_accesses hR key _) Frame.flag
  | pexpire key millis => exact .map (expireAfter_accesses hR key _) Frame.flag
  | persist key =>
    exact .map (.access List.mem_cons_self (fun _ => Slot.persist) fun _ => hR.persist) Frame.flag
  | _ => exact absurd rfl hreads

end

theorem accesses (c : KeyCommand) (hc : ∀ pattern, c ≠ .keys pattern) :
    Accesses (Slot.Change (0 < ·)) c.named fun ks => c.exec ks :=
  accesses_of Slot.admitsChanges_change c hc

end KeyCommand

def SetOptions.ttl? (o : SetOptions) : Option Nat :=
  match o.expiry with
  | some (.ttl millis) => some millis
  | _ => none

namespace StringCommand

def named : StringCommand → List Bytes
  | .append key _ | .bitcount key _ | .decr key | .decrby key _ | .get key | .getbit key _
  | .getdel key | .getrange key _ _ | .getset key _ | .incr key | .incrby key _
  | .incrbyfloat key _ | .psetex key _ _ | .set key _ _ | .setbit key _ _ | .setex key _ _
  | .setnx key _ | .strlen key => [key]
  | .mget keys => keys
  | .mset bindings => bindings.map (·.1)

/-- The time to live that a command states, in milliseconds. -/
def ttl? : StringCommand → Option Nat
  | .psetex _ ttl _ | .setex _ ttl _ => some ttl
  | .set _ _ options => options.ttl?
  | _ => none

/-- No command states a time to live that is over at once. -/
def WellTimed (c : StringCommand) : Prop := ∀ ttl ∈ c.ttl?, 0 < ttl

def onlyReads : StringCommand → Bool
  | .bitcount _ _ | .get _ | .getbit _ _ | .getrange _ _ _ | .mget _ | .strlen _ => true
  | _ => false

theorem getString_accesses {keys : List Bytes} {key : Bytes} (hkey : key ∈ keys) :
    Accesses Slot.Untouched keys fun ks => ks.getString key :=
  .read hkey fun _ => Slot.string?

theorem reads_accesses (c : StringCommand) (hreads : c.onlyReads = true) :
    Accesses Slot.Untouched c.named fun ks => c.exec ks := by
  have hfound (key : Bytes) : Accesses Slot.Untouched [key] fun ks => ks.getString key :=
    getString_accesses List.mem_cons_self
  cases c with
  | bitcount key range =>
    exact (hfound key).answer fun found => .count (found.elim 0 (countBits range))
  | get key => exact (hfound key).answer Frame.optionalBulk
  | getbit key offset =>
    exact (hfound key).answer fun found => .flag (Bits.get (found.getD []) offset)
  | getrange key start stop =>
    exact (hfound key).answer fun found => .bulk (substring start stop (found.getD []))
  | mget keys =>
    have hall : Accesses Slot.Untouched keys fun ks => ks.forEach Keyspace.getString keys :=
      .forEach fun key hkey => getString_accesses hkey
    exact hall.map fun found =>
      Except.ok (Frame.array (found.map fun r => .optionalBulk (r.toOption.bind id)))
  | strlen key => exact (hfound key).answer fun found => .count (found.getD []).length
  | _ => cases hreads

section Slots

variable {now : Nat} {slot left : Slot}

theorem overwrites_of_appendTo {value : Bytes} {result : Nat}
    (hf : appendTo value slot = .ok (result, left)) : Slot.Overwrites slot left := by
  obtain ⟨found, hfound, hf⟩ := bind_eq_ok_iff.1 hf
  split at hf
  · cases hf
  · cases hf
    exact ⟨_, _, hfound, rfl⟩

theorem overwrites_of_setBit {offset : Nat} {bit result : Bool}
    (hf : setBit offset bit slot = .ok (result, left)) : Slot.Overwrites slot left := by
  obtain ⟨found, hfound, hf⟩ := bind_eq_ok_iff.1 hf
  cases hf
  exact ⟨_, _, hfound, rfl⟩

theorem edit_of_appendTo {value : Bytes} {result : Nat}
    (hf : appendTo value slot = .ok (result, left)) : Slot.Edit now slot left :=
  (overwrites_of_appendTo hf).edit

theorem edit_of_setBit {offset : Nat} {bit result : Bool}
    (hf : setBit offset bit slot = .ok (result, left)) : Slot.Edit now slot left :=
  (overwrites_of_setBit hf).edit

theorem edit_of_getAndDelete {result : Option Bytes}
    (hf : getAndDelete slot = .ok (result, left)) : Slot.Edit now slot left := by
  obtain ⟨found, -, hf⟩ := bind_eq_ok_iff.1 hf
  cases hf
  split
  · exact .clear slot
  · exact .keep slot

end Slots

section
variable {ttls : Nat → Prop} {R : Nat → Slot → Slot → Prop} (hR : Slot.AdmitsChanges ttls R)
include hR

theorem put_accesses {keys : List Bytes} {key : Bytes} (hkey : key ∈ keys) (value : Bytes) :
    Accesses R keys fun ks => ((), ks.set key (.string value)) :=
  .put hkey (fun _ => ⟨.string value, none⟩) fun _ slot => hR.write slot value (.inl rfl)

theorem putWithTtl_accesses (key value : Bytes) {ttl : Nat} (httl : ttls ttl) :
    Accesses R [key] fun ks => ((), ks.setWithTtl key (.string value) ttl) :=
  .put List.mem_cons_self (fun now => ⟨.string value, deadlineAfter now ttl⟩)
    fun _ slot => hR.write slot value (.inr ⟨ttl, httl, rfl⟩)

theorem putAll_accesses {keys : List Bytes} {bindings : List (Bytes × Bytes)}
    (h : ∀ b ∈ bindings, b.1 ∈ keys) :
    Accesses R keys fun ks =>
      ((), bindings.foldl (fun ks (key, value) => ks.set key (.string value)) ks) := by
  induction bindings with
  | nil => exact .done ()
  | cons b rest ih =>
    have hrest := ih fun b hb => h b (List.mem_cons_of_mem _ hb)
    exact .andThen (put_accesses hR (h b List.mem_cons_self) b.2) fun _ => hrest

theorem write_accesses (key value : Bytes) {o : SetOptions} (ho : ∀ ttl ∈ o.ttl?, ttls ttl) :
    Accesses R [key] fun ks => ((), write ks key value o.expiry) := by
  obtain ⟨condition, expiry, get⟩ := o
  rcases expiry with _ | ⟨millis⟩ | _
  · exact put_accesses hR List.mem_cons_self value
  · exact putWithTtl_accesses hR key value (ho millis rfl)
  · exact .access List.mem_cons_self (fun _ slot => ((), some (Slot.overwrite slot (.string value))))
      fun _ slot => hR.overwrite slot value

end

def conditionHolds (key : Bytes) (o : SetOptions) (ks : Keyspace) : Bool × Keyspace :=
  match o.condition with
  | none => (true, ks)
  | some condition =>
    let (present, ks) := ks.exists? key
    (present == (condition == SetCondition.ifPresent), ks)

theorem conditionHolds_accesses (key : Bytes) (o : SetOptions) :
    Accesses Slot.Untouched [key] (conditionHolds key o) := by
  unfold conditionHolds
  cases o.condition with
  | none => exact .done true
  | some condition =>
    exact .map (.read List.mem_cons_self fun _ slot => slot.isSome)
      fun present => present == (condition == SetCondition.ifPresent)

def oldString (key : Bytes) (o : SetOptions) (ks : Keyspace) :
    Except StoreError (Option Bytes) × Keyspace :=
  if o.get then ks.getString key else (.ok none, ks)

theorem oldString_accesses (key : Bytes) (o : SetOptions) :
    Accesses Slot.Untouched [key] (oldString key o) := by
  unfold oldString
  split
  · exact getString_accesses List.mem_cons_self
  · exact .done (Except.ok none)

/-- What comes after the old string. -/
def setAfter (key value : Bytes) (o : SetOptions) :
    Except StoreError (Option Bytes) → Keyspace → Outcome
  | .error e, ks => (.error e, ks)
  | .ok old, ks =>
    let (holds, ks) := conditionHolds key o ks
    let ks := if holds then write ks key value o.expiry else ks
    (.ok (if o.get then .optionalBulk old else if holds then .ok else .nullBulk), ks)

theorem setWith_eq (ks : Keyspace) (key value : Bytes) (o : SetOptions) :
    setWith ks key value o =
      setAfter key value o (oldString key o ks).1 (oldString key o ks).2 := by
  unfold setWith oldString
  dsimp only
  split <;> rename_i hold <;> rw [hold] <;> rfl

section
variable {ttls : Nat → Prop} {R : Nat → Slot → Slot → Prop} (hR : Slot.AdmitsChanges ttls R)
include hR

theorem setWith_attempts (key value : Bytes) {o : SetOptions} (ho : ∀ ttl ∈ o.ttl?, ttls ttl) :
    Attempts R [key] fun ks => setWith ks key value o := by
  have hwrite (holds : Bool) (reply : Frame) : Accesses R [key] fun ks =>
      (reply, if holds then write ks key value o.expiry else ks) := by
    cases holds with
    | false => exact .done reply
    | true => exact (write_accesses hR key value ho).map fun _ => reply
  simp only [setWith_eq]
  refine .andThen (oldString_accesses key o) fun old => ?_
  cases old with
  | error e => exact .reads (.done (Except.error e))
  | ok old =>
    exact .andThen (conditionHolds_accesses key o) fun holds => .sure (hwrite holds
      (if o.get then Frame.optionalBulk old else if holds then .ok else .nullBulk))

theorem overwriting_attempts {α : Type} (key : Bytes) {f : Slot → Except StoreError (α × Slot)}
    (hf : ∀ {slot result left}, f slot = .ok (result, left) → Slot.Overwrites slot left) :
    Attempts R [key] fun ks => ks.tryAccess key f :=
  .tryAccess List.mem_cons_self fun h => hR.overwrites (hf h)

theorem incrementBy_attempts (key : Bytes) (n : Int) :
    Attempts R [key] fun ks => incrementBy ks key n :=
  (overwriting_attempts hR key Slot.overwrites_of_incrBy).answer fun sum =>
    .integer (Int64.ofInt sum)

theorem getdel_attempts (key : Bytes) :
    Attempts R [key] fun ks => ks.tryAccess key getAndDelete := by
  refine .tryAccess List.mem_cons_self fun {now slot result left} hf => ?_
  obtain ⟨found, -, hf⟩ := bind_eq_ok_iff.1 hf
  cases hf
  split
  · exact hR.clear slot
  · exact hR.keep slot

theorem getset_attempts (key value : Bytes) :
    Attempts R [key] fun ks => ks.tryAccess key (getAndSet value) := by
  refine .tryAccess List.mem_cons_self fun {now slot result left} hf => ?_
  obtain ⟨found, -, hf⟩ := bind_eq_ok_iff.1 hf
  cases hf
  exact hR.write slot value (.inl rfl)

theorem setnx_accesses (key value : Bytes) :
    Accesses R [key] fun ks => ks.access key (setIfAbsent value) := by
  refine .access List.mem_cons_self (fun _ => setIfAbsent value) fun _ slot => ?_
  cases slot with
  | none => exact hR.write none value (.inl rfl)
  | some e => exact hR.keep (some e)

theorem attempts_of (c : StringCommand) (hc : ∀ ttl ∈ c.ttl?, ttls ttl) :
    Attempts R c.named fun ks => c.exec ks := by
  by_cases hreads : c.onlyReads = true
  · exact .reads (c.reads_accesses hreads)
  cases c with
  | append key value =>
    exact (overwriting_attempts hR key overwrites_of_appendTo).answer Frame.count
  | decr key => exact incrementBy_attempts hR key (-1)
  | decrby key decrement =>
    simp only [exec]
    split
    · exact .reads (.done (Except.error StoreError.overflow))
    · exact incrementBy_attempts hR key (-decrement.toInt)
  | getdel key => exact (getdel_attempts hR key).answer Frame.optionalBulk
  | getset key value => exact (getset_attempts hR key value).answer Frame.optionalBulk
  | incr key => exact incrementBy_attempts hR key 1
  | incrby key increment => exact incrementBy_attempts hR key increment.toInt
  | incrbyfloat key increment =>
    exact (overwriting_attempts hR key Slot.overwrites_of_incrByFloat).answer fun sum =>
      .bulk sum.bytes
  | mset bindings =>
    exact .sure ((putAll_accesses hR fun b hb => List.mem_map_of_mem hb).map fun _ => Frame.ok)
  | psetex key ttl value =>
    exact .sure ((putWithTtl_accesses hR key value (hc ttl rfl)).map fun _ => Frame.ok)
  | set key value options => exact setWith_attempts hR key value hc
  | setbit key offset bit =>
    exact (overwriting_attempts hR key overwrites_of_setBit).answer Frame.flag
  | setex key ttl value =>
    exact .sure ((putWithTtl_accesses hR key value (hc ttl rfl)).map fun _ => Frame.ok)
  | setnx key value => exact .sure ((setnx_accesses hR key value).map Frame.flag)
  | _ => exact absurd rfl hreads

end

theorem attempts (c : StringCommand) :
    Attempts (Slot.Change (· ∈ c.ttl?)) c.named fun ks => c.exec ks :=
  attempts_of Slot.admitsChanges_change c fun _ h => h

theorem accesses (c : StringCommand) :
    Accesses (Slot.Change (· ∈ c.ttl?)) c.named fun ks => c.exec ks :=
  c.attempts.accesses .keep

end StringCommand

namespace ListCommand

def named : ListCommand → List Bytes
  | .brpop keys _ => keys
  | .llen key | .lpop key _ | .lpush key _ | .lrange key _ _ | .lrem key _ _ | .rpop key _
  | .rpush key _ => [key]

/-- What comes after the attempt at one key. -/
def afterPop (key : Bytes) (rest : List Bytes) :
    Except StoreError (Option (List Bytes)) → Keyspace → Outcome
  | .error e, ks => (.error e, ks)
  | .ok (some [value]), ks => (.ok (.bulkArray [key, value]), ks)
  | .ok _, ks => popFirst ks rest

theorem popFirst_cons (ks : Keyspace) (key : Bytes) (rest : List Bytes) :
    popFirst ks (key :: rest) =
      afterPop key rest (ks.update key (popTail 1)).1 (ks.update key (popTail 1)).2 := by
  rw [popFirst]
  generalize ks.update key (popTail 1) = r
  obtain ⟨popped, ks'⟩ := r
  rcases popped with e | _ | _ | ⟨value, _ | _⟩ <;> rfl

theorem popFirst_accesses_of {R : Nat → Slot → Slot → Prop}
    (hkeep : ∀ {now : Nat} (slot : Slot), R now slot slot)
    (hpop : ∀ {now slot left} {popped : Option (List Bytes)},
      Slot.update (popTail 1) slot = .ok (popped, left) → R now slot left)
    {keys targets : List Bytes} (h : ∀ key ∈ targets, key ∈ keys) :
    Accesses R keys fun ks => popFirst ks targets := by
  induction targets with
  | nil => exact .done (Except.ok Frame.nullArray)
  | cons key rest ih =>
    have hkey := h key List.mem_cons_self
    have hrest := ih fun k hk => h k (List.mem_cons_of_mem _ hk)
    simp only [popFirst_cons]
    refine .andThen (.tryAccess hkey hkeep hpop) fun popped => ?_
    rcases popped with e | _ | _ | ⟨value, _ | _⟩
    · exact .done (Except.error e)
    · exact hrest
    · exact hrest
    · exact .done (Except.ok (Frame.bulkArray [key, value]))
    · exact hrest

theorem popFirst_accesses {keys targets : List Bytes} (h : ∀ key ∈ targets, key ∈ keys) :
    Accesses Slot.Edit keys fun ks => popFirst ks targets :=
  popFirst_accesses_of .keep Slot.edit_of_update h

def onlyReads : ListCommand → Bool
  | .llen _ | .lrange _ _ _ => true
  | _ => false

theorem reads_accesses (c : ListCommand) (hreads : c.onlyReads = true) :
    Accesses Slot.Untouched c.named fun ks => c.exec ks := by
  have hfound (key : Bytes) :
      Accesses Slot.Untouched [key] fun ks => ks.getAs (List Bytes) key :=
    .read List.mem_cons_self fun _ => Slot.collection? (List Bytes)
  cases c with
  | llen key => exact (hfound key).answer fun found => .count (found.elim 0 List.length)
  | lrange key start stop => exact (hfound key).answer _
  | _ => cases hreads

variable {R : Nat → Slot → Slot → Prop}

/-- Left out is the walk over several keys, which may write at one before it fails at another. -/
theorem attempts_of (hR : Slot.Admits (List Bytes) R) (c : ListCommand)
    (hc : ∀ keys timeout, c ≠ .brpop keys timeout) : Attempts R c.named fun ks => c.exec ks := by
  by_cases hreads : c.onlyReads = true
  · exact .reads (c.reads_accesses hreads)
  cases c with
  | brpop keys timeout => exact absurd rfl (hc keys timeout)
  | lpop key count => exact .answer (.update_of hR List.mem_cons_self _) (popReply count)
  | lpush key values => exact .answer (.upsert_of hR List.mem_cons_self _) Frame.count
  | lrem key count element =>
    exact .answer (.update_of hR List.mem_cons_self _) fun removed => .count (removed.getD 0)
  | rpop key count => exact .answer (.update_of hR List.mem_cons_self _) (popReply count)
  | rpush key values => exact .answer (.upsert_of hR List.mem_cons_self _) Frame.count
  | _ => exact absurd rfl hreads

theorem attempts (c : ListCommand) (hc : ∀ keys timeout, c ≠ .brpop keys timeout) :
    Attempts Slot.Edit c.named fun ks => c.exec ks := attempts_of Slot.admits_edit c hc

theorem accesses_of (hR : Slot.Admits (List Bytes) R)
    (hkeep : ∀ {now : Nat} (slot : Slot), R now slot slot) (c : ListCommand) :
    Accesses R c.named fun ks => c.exec ks := by
  cases c with
  | brpop keys timeout => exact popFirst_accesses_of hkeep hR.update fun _ h => h
  | _ => exact (attempts_of hR _ (by nofun)).accesses hkeep

theorem accesses (c : ListCommand) : Accesses Slot.Edit c.named fun ks => c.exec ks :=
  accesses_of Slot.admits_edit .keep c

end ListCommand

namespace SetCommand

def named : SetCommand → List Bytes
  | .sadd key _ | .scard key | .sismember key _ | .smembers key | .srem key _
  | .sscan key _ _ _ => [key]

def onlyReads : SetCommand → Bool
  | .scard _ | .sismember _ _ | .smembers _ | .sscan _ _ _ _ => true
  | .sadd _ _ | .srem _ _ => false

variable [Glob.Matcher]

theorem reads_accesses (c : SetCommand) (hreads : c.onlyReads = true) :
    Accesses Slot.Untouched c.named fun ks => c.exec ks := by
  have hfound (key : Bytes) : Accesses Slot.Untouched [key] fun ks => ks.getAs ByteSet key :=
    .read List.mem_cons_self fun _ => Slot.collection? ByteSet
  cases c with
  | scard key => exact (hfound key).answer fun found => .count (members found).length
  | sismember key member =>
    exact (hfound key).answer fun found => .flag ((found.getD .empty).contains member)
  | smembers key => exact (hfound key).answer fun found => .bulkArray (members found)
  | sscan key cursor pattern count => exact (hfound key).answer _
  | _ => cases hreads

theorem attempts_of {R : Nat → Slot → Slot → Prop} (hR : Slot.Admits ByteSet R)
    (c : SetCommand) : Attempts R c.named fun ks => c.exec ks := by
  by_cases hreads : c.onlyReads = true
  · exact .reads (c.reads_accesses hreads)
  cases c with
  | sadd key added => exact .answer (.upsert_of hR List.mem_cons_self _) Frame.count
  | srem key removed =>
    exact .answer (.update_of hR List.mem_cons_self _) fun removed => .count (removed.getD 0)
  | _ => exact absurd rfl hreads

theorem attempts (c : SetCommand) : Attempts Slot.Edit c.named fun ks => c.exec ks :=
  attempts_of Slot.admits_edit c

theorem accesses (c : SetCommand) : Accesses Slot.Edit c.named fun ks => c.exec ks :=
  c.attempts.accesses .keep

end SetCommand

namespace SortedSetCommand

def named : SortedSetCommand → List Bytes
  | .zadd key .. | .zcard key | .zrange key .. | .zrangebyscore key .. | .zrem key _
  | .zremrangebyrank key .. | .zremrangebyscore key .. | .zrevrange key .. | .zscore key _ => [key]

def onlyReads : SortedSetCommand → Bool
  | .zcard _ | .zrange .. | .zrangebyscore .. | .zrevrange .. | .zscore _ _ => true
  | .zadd .. | .zrem _ _ | .zremrangebyrank .. | .zremrangebyscore .. => false

theorem reads_accesses (c : SortedSetCommand) (hreads : c.onlyReads = true) :
    Accesses Slot.Untouched c.named fun ks => c.exec ks := by
  have hfound (key : Bytes) : Accesses Slot.Untouched [key] fun ks => ks.getAs SortedSet key :=
    .read List.mem_cons_self fun _ => Slot.collection? SortedSet
  have hrange (key : Bytes) (scores : Bool) (select : SortedSet → List (Bytes × Binary64)) :
      Accesses Slot.Untouched [key] fun ks => rangeOf ks key scores select :=
    (hfound key).answer fun found => rangeReply scores (found.elim [] select)
  cases c with
  | zcard key => exact (hfound key).answer fun found => .count (found.elim 0 SortedSet.size)
  | zrange key start stop scores => exact hrange key scores _
  | zrangebyscore key min max scores limit => exact hrange key scores _
  | zrevrange key start stop scores => exact hrange key scores _
  | zscore key member => exact (hfound key).answer _
  | _ => cases hreads

theorem attempts (c : SortedSetCommand) : Attempts Slot.Edit c.named fun ks => c.exec ks := by
  by_cases hreads : c.onlyReads = true
  · exact .reads (c.reads_accesses hreads)
  have hremoved (key : Bytes) (remove : SortedSet → Nat × SortedSet) :
      Attempts Slot.Edit [key] fun ks => removedBy ks key remove :=
    .answer (.update List.mem_cons_self remove) fun removed => .count (removed.getD 0)
  cases c with
  | zadd key condition changed added => exact .answer (.upsert List.mem_cons_self _) Frame.count
  | zrem key removed => exact hremoved key _
  | zremrangebyrank key start stop => exact hremoved key _
  | zremrangebyscore key min max => exact hremoved key _
  | _ => exact absurd rfl hreads

theorem accesses (c : SortedSetCommand) : Accesses Slot.Edit c.named fun ks => c.exec ks :=
  c.attempts.accesses .keep

end SortedSetCommand

namespace HashCommand

def named : HashCommand → List Bytes
  | .hdel key _ | .hexists key _ | .hget key _ | .hgetall key | .hlen key | .hmget key _
  | .hmset key _ | .hset key _ => [key]

def onlyReads : HashCommand → Bool
  | .hexists _ _ | .hget _ _ | .hgetall _ | .hlen _ | .hmget _ _ => true
  | .hdel _ _ | .hmset _ _ | .hset _ _ => false

theorem reads_accesses (c : HashCommand) (hreads : c.onlyReads = true) :
    Accesses Slot.Untouched c.named fun ks => c.exec ks := by
  have hfound (key : Bytes) : Accesses Slot.Untouched [key] fun ks => ks.getAs (Table Bytes) key :=
    .read List.mem_cons_self fun _ => Slot.collection? (Table Bytes)
  cases c with
  | hexists key field => exact (hfound key).answer fun found => .flag (field? found field).isSome
  | hget key field => exact (hfound key).answer fun found => .optionalBulk (field? found field)
  | hgetall key => exact (hfound key).answer _
  | hlen key => exact (hfound key).answer fun found => .count (found.elim 0 Table.size)
  | hmget key fields =>
    exact (hfound key).answer fun found => .array (fields.map fun f => .optionalBulk (field? found f))
  | _ => cases hreads

theorem attempts_of {R : Nat → Slot → Slot → Prop} (hR : Slot.Admits (Table Bytes) R)
    (c : HashCommand) : Attempts R c.named fun ks => c.exec ks := by
  by_cases hreads : c.onlyReads = true
  · exact .reads (c.reads_accesses hreads)
  have hset (key : Bytes) (bindings : List (Bytes × Bytes)) :
      Attempts R [key] fun ks => setFields ks key bindings :=
    .upsert_of hR List.mem_cons_self _
  cases c with
  | hdel key fields =>
    exact .answer (.update_of hR List.mem_cons_self _) fun removed => .count (removed.getD 0)
  | hmset key bindings => exact (hset key bindings).answer fun _ => .ok
  | hset key bindings => exact (hset key bindings).answer Frame.count
  | _ => exact absurd rfl hreads

theorem attempts (c : HashCommand) : Attempts Slot.Edit c.named fun ks => c.exec ks :=
  attempts_of Slot.admits_edit c

theorem accesses (c : HashCommand) : Accesses Slot.Edit c.named fun ks => c.exec ks :=
  c.attempts.accesses .keep

end HashCommand

def ServerCommand.onlyReads : ServerCommand → Bool
  | .clientGetName | .clientId | .dbsize | .echo _ | .info _ | .ping _ | .select _ => true
  | .clientSetLibName _ | .clientSetLibVersion _ | .clientSetName _ | .flushdb | .quit => false

namespace Command

def onlyReads : Command → Bool
  | .keys c => c.onlyReads
  | .strings c => c.onlyReads
  | .lists c => c.onlyReads
  | .sets c => c.onlyReads
  | .sortedSets c => c.onlyReads
  | .hashes c => c.onlyReads
  | .server c => c.onlyReads
  | .transaction _ => false

/-- The keys that a command names. The search for keys names a pattern, and no key. -/
def named : Command → List Bytes
  | .keys c => c.named
  | .strings c => c.named
  | .lists c => c.named
  | .sets c => c.named
  | .sortedSets c => c.named
  | .hashes c => c.named
  | .server _ | .transaction _ => []

/-- All commands but those that look at the keyspace as a whole, or drop all of it. -/
def isLocal : Command → Bool
  | .keys (.keys _) | .server .dbsize | .server .flushdb | .server (.info _) => false
  | _ => true

def WellTimed : Command → Prop
  | .strings c => c.WellTimed
  | _ => True

section
variable {R : Nat → Slot → Slot → Prop} (hchanges : Slot.AdmitsChanges (fun _ => True) R)
  (hlists : Slot.Admits (List Bytes) R) (hsets : Slot.Admits ByteSet R)
  (hhashes : Slot.Admits (Table Bytes) R)
  (hsortedSets : ∀ c : SortedSetCommand, Accesses R c.named fun ks => c.exec ks)
include hchanges hlists hsets hhashes hsortedSets

variable [Glob.Matcher]

theorem accesses_of {c : Command} (hc : c.isLocal = true) (client : Client) :
    Accesses R c.named fun ks =>
      (((c.exec ks client).1, (c.exec ks client).2.2), (c.exec ks client).2.1) := by
  have hstore {keys : List Bytes} {op : Keyspace → Outcome} (hop : Accesses R keys op) :
      Accesses R keys fun ks => (((op ks).1.mapError CommandError.store, client), (op ks).2) :=
    hop.map fun result => (result.mapError CommandError.store, client)
  cases c with
  | keys c =>
    have hne (pattern : String) : c ≠ .keys pattern := by
      rintro rfl
      cases hc
    have hop := KeyCommand.accesses_of (hchanges.mono fun _ _ => trivial) c hne
    exact hop.map fun reply => (Except.ok reply, client)
  | strings c =>
    exact hstore ((StringCommand.attempts_of hchanges c fun _ _ => trivial).accesses hchanges.keep)
  | lists c => exact hstore (ListCommand.accesses_of hlists hchanges.keep c)
  | sets c => exact hstore ((SetCommand.attempts_of hsets c).accesses hchanges.keep)
  | sortedSets c => exact hstore (hsortedSets c)
  | hashes c => exact hstore ((HashCommand.attempts_of hhashes c).accesses hchanges.keep)
  | server c =>
    obtain ⟨reply, left, hexec⟩ : ∃ reply left, ∀ ks, c.exec ks client = (reply, ks, left) := by
      cases c with
      | dbsize | flushdb | info _ => cases hc
      | _ => exact ⟨_, _, fun _ => rfl⟩
    simp only [exec, hexec]
    exact .done (Except.ok reply, left)
  | transaction c => exact .done (Except.error (CommandError.transaction c.error), client)

/-- All that a command does to a keyspace is to access some keys, unless it drops every entry. -/
theorem accesses_or_flushes (c : Command) (client : Client) :
    (∃ keys, Accesses R keys fun ks => ((), (c.exec ks client).2.1)) ∨
      ∀ ks, (c.exec ks client).2.1 = ks.flush := by
  by_cases hc : c.isLocal = true
  · have hop := accesses_of hchanges hlists hsets hhashes hsortedSets hc client
    exact .inl ⟨c.named, hop.map fun _ => ()⟩
  have hnothing : ∃ keys, Accesses R keys fun ks => ((), ks) := ⟨[], .done ()⟩
  cases c with
  | keys c =>
    cases c with
    | keys pattern => exact .inl hnothing
    | _ => exact absurd rfl hc
  | server c =>
    cases c with
    | dbsize | info _ => exact .inl hnothing
    | flushdb => exact .inr fun _ => rfl
    | _ => exact absurd rfl hc
  | _ => exact absurd rfl hc

end

variable [Glob.Matcher]

theorem accesses {c : Command} (hc : c.isLocal = true) (client : Client) :
    Accesses (Slot.Change fun _ => True) c.named fun ks =>
      (((c.exec ks client).1, (c.exec ks client).2.2), (c.exec ks client).2.1) :=
  accesses_of Slot.admitsChanges_change Slot.admits_change Slot.admits_change Slot.admits_change
    (fun c => c.accesses.changes) hc client

theorem changes_or_flushes (c : Command) (client : Client) :
    (∃ keys, Accesses (Slot.Change fun _ => True) keys fun ks => ((), (c.exec ks client).2.1)) ∨
      ∀ ks, (c.exec ks client).2.1 = ks.flush :=
  accesses_or_flushes Slot.admitsChanges_change Slot.admits_change Slot.admits_change
    Slot.admits_change (fun c => c.accesses.changes) c client

end Command
end RespStore
