import RespStore.Proofs.Unchanged

/-! What commands do to the type of what a key holds, and to its deadline. All but eight leave both
as they are for as long as the key lives. -/
namespace RespStore
open Keyspace

namespace Slot

variable {now : Nat} {found left : Slot}

/-- What is there before and after keeps its type and its deadline, and what is new has none. -/
structure Steady (found left : Slot) : Prop where
  kept : ∀ e ∈ found, ∀ e' ∈ left,
    e'.value.typeName = e.value.typeName ∧ e'.deadline = e.deadline
  created : found = none → ∀ e' ∈ left, e'.deadline = none

/-- All that is left was there, with its type and its deadline. -/
def Shrinks (_now : Nat) (found left : Slot) : Prop :=
  ∀ e' ∈ left, ∃ e ∈ found, e'.value.typeName = e.value.typeName ∧ e'.deadline = e.deadline

theorem Shrinks.refl (slot : Slot) : Shrinks now slot slot := fun e he => ⟨e, he, rfl, rfl⟩

theorem Shrinks.trans {middle : Slot} (h : Shrinks now found middle)
    (h' : Shrinks now middle left) : Shrinks now found left := by
  intro e'' he''
  obtain ⟨e', he', htype', hdeadline'⟩ := h' e'' he''
  obtain ⟨e, he, htype, hdeadline⟩ := h e' he'
  exact ⟨e, he, htype'.trans htype, hdeadline'.trans hdeadline⟩

theorem Steady.refl (slot : Slot) : Steady slot slot where
  kept e he e' he' := by
    rw [Option.mem_def, Option.mem_def.1 he] at he'
    cases he'
    exact ⟨rfl, rfl⟩
  created hnone e' he' := by
    rw [hnone] at he'
    cases he'

theorem Shrinks.steady (h : Shrinks now found left) : Steady found left where
  kept e he e' he' := by
    obtain ⟨old, hold, hsame⟩ := h e' he'
    rw [Option.mem_def, Option.mem_def.1 he] at hold
    cases hold
    exact hsame
  created hfound e' he' := by
    obtain ⟨e, he, -⟩ := h e' he'
    rw [hfound] at he
    cases he

theorem Steady.shrinks (h : Steady found left) (hnone : found = none → left = none) :
    Shrinks now found left := by
  intro e' he'
  cases found with
  | none =>
    rw [hnone rfl] at he'
    cases he'
  | some e => exact ⟨e, rfl, h.kept e rfl e' he'⟩

theorem Steady.filter (h : Steady found left) (keep : Entry → Bool) :
    Steady found (left.filter keep) where
  kept e he e' he' := h.kept e he e' (Option.filter_eq_some_iff.1 he').1
  created hfound e' he' := h.created hfound e' (Option.filter_eq_some_iff.1 he').1

theorem typeName_of_string? {e : Entry} {data : Option Bytes}
    (h : string? (some e) = .ok data) : e.value.typeName = "string" := by
  obtain ⟨value, deadline⟩ := e
  cases value with
  | string _ => rfl
  | _ => cases h

theorem typeName_of_collection? {α : Type} [Collection α] [LawfulCollection α] {e : Entry}
    {c : Option α} (h : collection? α (some e) = .ok c) :
    e.value.typeName = Collection.typeName α := by
  refine (LawfulCollection.isSome_ofValue?_iff e.value).1 ?_
  unfold collection? at h
  dsimp only at h
  split at h
  · next hvalue => rw [hvalue, Option.isSome_some]
  · cases h

theorem typeName_toValue {α : Type} [Collection α] [LawfulCollection α] (c : α) :
    (Collection.toValue c).typeName = Collection.typeName α := by
  refine (LawfulCollection.isSome_ofValue?_iff _).1 ?_
  rw [Collection.ofValue?_eq_some_iff.2 rfl, Option.isSome_some]

theorem Edit.steady (h : Edit now found left) : Steady found left := by
  cases h with
  | keep => exact .refl found
  | clear => exact ⟨fun _ _ => nofun, fun _ => nofun⟩
  | string h data =>
    cases found with
    | none =>
      refine ⟨nofun, fun _ e' he' => ?_⟩
      cases he'
      rfl
    | some e =>
      refine ⟨fun _ he e' he' => ?_, nofun⟩
      cases he
      cases he'
      exact ⟨(typeName_of_string? h).symm, rfl⟩
  | collection h c hc =>
    cases found with
    | none =>
      refine ⟨nofun, fun _ e' he' => ?_⟩
      cases he'
      rfl
    | some e =>
      refine ⟨fun _ he e' he' => ?_, nofun⟩
      cases he
      cases he'
      exact ⟨(typeName_toValue c).trans (typeName_of_collection? h).symm, rfl⟩

theorem shrinks_of_update {α β : Type} [Collection α] [LawfulCollection α] {f : α → β × α}
    {result : Option β} (hf : update f found = .ok (result, left)) : Shrinks now found left := by
  have hedit : Edit now found left := edit_of_update hf
  refine hedit.steady.shrinks fun hfound => ?_
  rw [hfound] at hf
  cases hf
  rfl

theorem steady_setIfAbsent (value : Bytes) (slot : Slot) :
    Steady slot (StringCommand.setIfAbsent value slot).2 := by
  cases slot with
  | none =>
    have hedit : Edit 0 none (some (overwrite none (.string value))) := .string rfl value
    exact hedit.steady
  | some e => exact .refl (some e)

end Slot

namespace Keyspace

variable {α : Type} {keys : List Bytes}

/-- Under every key what an operation finds live and what it leaves live are steady. -/
def KeepsSteady (op : Keyspace → α × Keyspace) : Prop :=
  ∀ (ks : Keyspace) (key : Bytes), Slot.Steady (ks.live.get? key) ((op ks).2.live.get? key)

/-- By induction on the accesses: what each of them leaves, the next ones find. -/
theorem Accesses.shrinks {op : Keyspace → α × Keyspace} (h : Accesses Slot.Shrinks keys op)
    (ks : Keyspace) (key : Bytes) :
    Slot.Shrinks ks.now (ks.live.get? key) ((op ks).2.live.get? key) := by
  induction h generalizing ks with
  | done a => exact .refl _
  | access hkey f hf =>
    rw [get?_live_access]
    split
    · next heq =>
      intro e' he'
      rw [heq]
      exact hf ks.now _ e' (Option.filter_eq_some_iff.1 he').1
    · exact .refl _
  | put hkey entry hentry =>
    obtain ⟨_, hnothing, -⟩ := hentry 0 none _ rfl
    cases hnothing
  | andThen _ _ ihop ihnext => exact (ihop ks).trans (ihnext _ _)

namespace KeepsSteady

theorem of_shrinks {op : Keyspace → α × Keyspace} (h : Accesses Slot.Shrinks keys op) :
    KeepsSteady op := fun ks key => (h.shrinks ks key).steady

theorem of_reads {op : Keyspace → α × Keyspace} (h : Accesses Slot.Untouched keys op) :
    KeepsSteady op := of_shrinks (h.of_untouched .refl)

theorem access {key : Bytes} {f : Slot → α × Slot} (hf : ∀ slot, Slot.Steady slot (f slot).2) :
    KeepsSteady fun ks => ks.access key f := by
  intro ks k
  rw [get?_live_access]
  split
  · next heq =>
    rw [heq]
    exact (hf _).filter _
  · exact .refl _

theorem tryAccess {key : Bytes} {f : Slot → Except StoreError (α × Slot)}
    (hf : ∀ {slot result left}, f slot = .ok (result, left) → Slot.Edit 0 slot left) :
    KeepsSteady fun ks => ks.tryAccess key f := by
  refine access fun slot => ?_
  split
  · next hok => exact (hf hok).steady
  · exact .refl slot

theorem answer {op : Keyspace → Except StoreError α × Keyspace} (h : KeepsSteady op)
    (f : α → Frame) : KeepsSteady fun ks => answer f (op ks) := h

end KeepsSteady
end Keyspace

def KeyCommand.redates : KeyCommand → Bool
  | .expire _ _ | .persist _ | .pexpire _ _ => true
  | _ => false

def StringCommand.replaces : StringCommand → Bool
  | .getset _ _ | .mset _ | .psetex _ _ _ | .set _ _ _ | .setex _ _ _ => true
  | _ => false

/-- The commands that may change the type of what is live, or its deadline. -/
def Command.redeclares : Command → Bool
  | .keys c => c.redates
  | .strings c => c.replaces
  | _ => false

theorem KeyCommand.keepsSteady [Glob.Matcher] (c : KeyCommand) (hc : c.redates = false) :
    KeepsSteady fun ks => c.exec ks := by
  cases c with
  | del targets =>
    have hremoved : Accesses Slot.Shrinks targets fun ks => ks.forEach Keyspace.remove targets :=
      .forEach fun key hkey =>
        .access hkey (fun _ slot => (slot.map Entry.value, none)) fun _ _ => nofun
    exact .of_shrinks (hremoved.map fun removed => Frame.count (removed.countP (·.isSome)))
  | keys pattern => exact fun ks key => .refl _
  | expire key seconds | persist key | pexpire key millis => cases hc
  | _ => exact .of_reads (reads_accesses _ (by nofun) rfl)

namespace StringCommand

theorem incrementBy_keepsSteady (key : Bytes) (n : Int) :
    KeepsSteady fun ks => incrementBy ks key n :=
  .answer (.tryAccess Slot.edit_of_incrBy) fun sum => .integer (Int64.ofInt sum)

theorem keepsSteady (c : StringCommand) (hc : c.replaces = false) :
    KeepsSteady fun ks => c.exec ks := by
  by_cases hreads : c.onlyReads = true
  · exact .of_reads (c.reads_accesses hreads)
  cases c with
  | append key value => exact .answer (.tryAccess edit_of_appendTo) Frame.count
  | decr key => exact incrementBy_keepsSteady key (-1)
  | decrby key decrement =>
    simp only [exec]
    split
    · exact fun ks key => .refl _
    · exact incrementBy_keepsSteady key (-decrement.toInt)
  | getdel key => exact .answer (.tryAccess edit_of_getAndDelete) Frame.optionalBulk
  | incr key => exact incrementBy_keepsSteady key 1
  | incrby key increment => exact incrementBy_keepsSteady key increment.toInt
  | incrbyfloat key increment =>
    exact .answer (.tryAccess Slot.edit_of_incrByFloat) fun sum => .bulk sum.bytes
  | setbit key offset bit => exact .answer (.tryAccess edit_of_setBit) Frame.flag
  | setnx key value =>
    have hop : KeepsSteady fun ks => ks.access key (setIfAbsent value) :=
      .access (Slot.steady_setIfAbsent value)
    exact hop
  | getset _ _ | mset _ | psetex _ _ _ | set _ _ _ | setex _ _ _ => cases hc
  | _ => exact absurd rfl hreads

end StringCommand

theorem ListCommand.keepsSteady (c : ListCommand) : KeepsSteady fun ks => c.exec ks := by
  by_cases hreads : c.onlyReads = true
  · exact .of_reads (c.reads_accesses hreads)
  cases c with
  | brpop keys timeout =>
    exact .of_shrinks (popFirst_accesses_of .refl Slot.shrinks_of_update fun _ h => h)
  | lpop key count => exact .answer (.tryAccess Slot.edit_of_update) (popReply count)
  | lpush key values => exact .answer (.tryAccess Slot.edit_of_upsert) Frame.count
  | lrem key count element =>
    exact .answer (.tryAccess Slot.edit_of_update) fun removed => .count (removed.getD 0)
  | rpop key count => exact .answer (.tryAccess Slot.edit_of_update) (popReply count)
  | rpush key values => exact .answer (.tryAccess Slot.edit_of_upsert) Frame.count
  | _ => exact absurd rfl hreads

theorem SetCommand.keepsSteady [Glob.Matcher] (c : SetCommand) :
    KeepsSteady fun ks => c.exec ks := by
  by_cases hreads : c.onlyReads = true
  · exact .of_reads (c.reads_accesses hreads)
  cases c with
  | sadd key members => exact .answer (.tryAccess Slot.edit_of_upsert) Frame.count
  | srem key members =>
    exact .answer (.tryAccess Slot.edit_of_update) fun removed => .count (removed.getD 0)
  | _ => exact absurd rfl hreads

theorem SortedSetCommand.keepsSteady (c : SortedSetCommand) :
    KeepsSteady fun ks => c.exec ks := by
  by_cases hreads : c.onlyReads = true
  · exact .of_reads (c.reads_accesses hreads)
  have hremoved (key : Bytes) (remove : SortedSet → Nat × SortedSet) :
      KeepsSteady fun ks => removedBy ks key remove :=
    .answer (.tryAccess Slot.edit_of_update) fun removed => .count (removed.getD 0)
  cases c with
  | zadd key condition changed members =>
    exact .answer (.tryAccess Slot.edit_of_upsert) Frame.count
  | zrem key members => exact hremoved key _
  | zremrangebyrank key start stop => exact hremoved key _
  | zremrangebyscore key min max => exact hremoved key _
  | _ => exact absurd rfl hreads

theorem HashCommand.keepsSteady (c : HashCommand) : KeepsSteady fun ks => c.exec ks := by
  by_cases hreads : c.onlyReads = true
  · exact .of_reads (c.reads_accesses hreads)
  cases c with
  | hdel key fields =>
    exact .answer (.tryAccess Slot.edit_of_update) fun removed => .count (removed.getD 0)
  | hmset key bindings => exact .answer (.tryAccess Slot.edit_of_upsert) fun _ => .ok
  | hset key bindings => exact .answer (.tryAccess Slot.edit_of_upsert) Frame.count
  | _ => exact absurd rfl hreads

/-- Only the declared commands change the type of what stays live, or its deadline. -/
theorem Command.steady [Glob.Matcher] {c : Command} (hc : c.redeclares = false) (client : Client)
    (ks : Keyspace) (key : Bytes) :
    Slot.Steady (ks.live.get? key) ((c.exec ks client).2.1.live.get? key) := by
  cases c with
  | keys c => exact c.keepsSteady hc ks key
  | strings c => exact c.keepsSteady hc ks key
  | lists c => exact c.keepsSteady ks key
  | sets c => exact c.keepsSteady ks key
  | sortedSets c => exact c.keepsSteady ks key
  | hashes c => exact c.keepsSteady ks key
  | server c =>
    cases c with
    | flushdb => exact ⟨fun _ _ => nofun, fun _ => nofun⟩
    | _ => exact .refl _
  | transaction c => exact .refl _

namespace Keyspace

variable {ks ks' : Keyspace} {key : Bytes} {e : Entry}

theorem get?_live_of_put (ks : Keyspace) (hnow : ks'.now = ks.now)
    (hentries : ks'.entries = ks.entries.set key (some e)) (he : Slot.LiveAt ks.now (some e)) :
    ks'.live.get? key = some e := by
  rw [live_of_entries_set hnow hentries he, Table.get?_set, if_pos rfl]

theorem get?_live_set (ks : Keyspace) (key : Bytes) (value : Value) :
    (ks.set key value).live.get? key = some ⟨value, none⟩ :=
  get?_live_of_put ks rfl rfl nofun

theorem get?_live_setWithTtl {ttl : Nat} (ks : Keyspace) (key : Bytes) (value : Value)
    (httl : 0 < ttl) :
    (ks.setWithTtl key value ttl).live.get? key = some ⟨value, deadlineAfter ks.now ttl⟩ := by
  have hstated : Slot.Stated (0 < ·) ks.now (deadlineAfter ks.now ttl) := .inr ⟨ttl, httl, rfl⟩
  exact get?_live_of_put ks rfl rfl hstated.lt

theorem get?_live_overwrite (ks : Keyspace) (key : Bytes) (value : Value) :
    (ks.overwrite key value).live.get? key =
      some ⟨value, (ks.live.get? key).bind (·.deadline)⟩ :=
  get?_live_of_put ks (now_access ks key _) (ks.entries_access key _) (ks.liveAt_get?_live key)

theorem get?_live_set_of_ne (ks : Keyspace) {k : Bytes} (hk : k ≠ key) (value : Value) :
    (ks.set key value).live.get? k = ks.live.get? k := by
  rw [get?_live, get?_live]
  exact congrArg (Option.filter _) ((Table.get?_insert _ _ _ _).trans (if_neg hk))

end Keyspace

namespace SetOptions

def Permits (o : SetOptions) (slot : Slot) : Prop :=
  match o.condition with
  | none => True
  | some .ifAbsent => slot = none
  | some .ifPresent => slot ≠ none

def deadlineOver (o : SetOptions) (now : Nat) (slot : Slot) : Option Nat :=
  match o.expiry with
  | none => none
  | some (.ttl millis) => deadlineAfter now millis
  | some .keep => slot.bind (·.deadline)

end SetOptions

namespace StringCommand

variable {ks : Keyspace} {key value : Bytes} {o : SetOptions}

theorem get?_live_write (ho : o.WellTimed) (ks : Keyspace) (key value : Bytes) :
    (write ks key value o.expiry).live.get? key =
      some ⟨.string value, o.deadlineOver ks.now (ks.live.get? key)⟩ := by
  obtain ⟨condition, expiry, get⟩ := o
  rcases expiry with _ | ⟨millis⟩ | _
  · exact ks.get?_live_set key (.string value)
  · exact ks.get?_live_setWithTtl key (.string value) (ho millis rfl)
  · exact ks.get?_live_overwrite key (.string value)

theorem conditionHolds_of_permits (h : o.Permits (ks.live.get? key)) :
    (conditionHolds key o ks).1 = true := by
  have hpresent : (ks.exists? key).1 = (ks.live.get? key).isSome := ks.access_fst key _
  obtain ⟨_ | _ | _, expiry, get⟩ := o
  · rfl
  · have habsent : ks.live.get? key = none := h
    rw [habsent] at hpresent
    simp only [conditionHolds, hpresent]
    rfl
  · have hfound : (ks.live.get? key).isSome = true := Option.isSome_iff_ne_none.2 h
    rw [hfound] at hpresent
    simp only [conditionHolds, hpresent]
    rfl

/-- What is read before a value is written makes no difference to what is live. -/
theorem get?_live_setWith (ho : o.WellTimed) (hpermits : o.Permits (ks.live.get? key))
    {reply : Frame} (hreply : (setWith ks key value o).1 = .ok reply) :
    (setWith ks key value o).2.live.get? key =
      some ⟨.string value, o.deadlineOver ks.now (ks.live.get? key)⟩ := by
  have hread : ks.Sheds (oldString key o ks).2 := (oldString_accesses key o).sheds ks
  rw [setWith_eq] at hreply ⊢
  generalize hold : (oldString key o ks).1 = old at hreply ⊢
  cases old with
  | error e => cases hreply
  | ok found =>
    have hchecked := (conditionHolds_accesses key o).sheds (oldString key o ks).2
    have hsheds := hread.trans hchecked
    have hholds : (conditionHolds key o (oldString key o ks).2).1 = true :=
      conditionHolds_of_permits (by rwa [hread.live])
    have hwritten := get?_live_write ho (conditionHolds key o (oldString key o ks).2).2 key value
    rw [hsheds.now, hsheds.live] at hwritten
    simp only [setAfter, hholds, if_true]
    exact hwritten

theorem get?_live_getset {found : Option Bytes}
    (hreply : (ks.tryAccess key (getAndSet value)).1 = .ok found) :
    (ks.tryAccess key (getAndSet value)).2.live.get? key = some ⟨.string value, none⟩ := by
  rw [tryAccess_fst] at hreply
  obtain ⟨⟨result, left⟩, hslot, -⟩ := map_eq_ok_iff.1 hreply
  obtain ⟨_, -, hleft⟩ := bind_eq_ok_iff.1 hslot
  cases hleft
  have hentries := ks.entries_access key (Accesses.tried (getAndSet value))
  rw [Accesses.tried, hslot] at hentries
  exact get?_live_of_put ks (ks.now_access key _) hentries nofun

theorem get?_live_putAll_of_not_mem {bindings : List (Bytes × Bytes)}
    (h : key ∉ bindings.map (·.1)) (ks : Keyspace) :
    (bindings.foldl (fun ks (key, value) => ks.set key (.string value)) ks).live.get? key =
      ks.live.get? key := by
  induction bindings generalizing ks with
  | nil => rfl
  | cons b rest ih =>
    rw [List.map_cons, List.mem_cons, not_or] at h
    exact (ih h.2 _).trans (ks.get?_live_set_of_ne h.1 _)

theorem get?_live_putAll (before : List (Bytes × Bytes)) {after : List (Bytes × Bytes)}
    (hlast : key ∉ after.map (·.1)) :
    ((before ++ (key, value) :: after).foldl
      (fun ks (key, value) => ks.set key (.string value)) ks).live.get? key =
        some ⟨.string value, none⟩ := by
  rw [List.foldl_append, List.foldl_cons, get?_live_putAll_of_not_mem hlast]
  exact Keyspace.get?_live_set _ key (.string value)

end StringCommand

/-- What a command that succeeds binds a key to as a whole: a string, under the deadline that the
command states or keeps. -/
inductive Command.Writes (ks : Keyspace) : Command → Bytes → Entry → Prop
  | set (key value : Bytes) {o : SetOptions} (h : o.Permits (ks.live.get? key)) :
      Writes ks (.strings (.set key value o)) key
        ⟨.string value, o.deadlineOver ks.now (ks.live.get? key)⟩
  | setex (key value : Bytes) (ttl : Nat) :
      Writes ks (.strings (.setex key ttl value)) key ⟨.string value, deadlineAfter ks.now ttl⟩
  | psetex (key value : Bytes) (ttl : Nat) :
      Writes ks (.strings (.psetex key ttl value)) key ⟨.string value, deadlineAfter ks.now ttl⟩
  | getset (key value : Bytes) : Writes ks (.strings (.getset key value)) key ⟨.string value, none⟩
  | mset (before : List (Bytes × Bytes)) (key value : Bytes) {after : List (Bytes × Bytes)}
      (hlast : key ∉ after.map (·.1)) :
      Writes ks (.strings (.mset (before ++ (key, value) :: after))) key ⟨.string value, none⟩

theorem Command.get?_live_of_writes [Glob.Matcher] {c : Command} (hc : c.WellTimed) {ks : Keyspace}
    (client : Client) {reply : Frame} (hreply : (c.exec ks client).1 = .ok reply) {key : Bytes}
    {e : Entry} (h : c.Writes ks key e) : (c.exec ks client).2.1.live.get? key = some e := by
  cases h with
  | set _ value hpermits =>
    exact StringCommand.get?_live_setWith hc hpermits (mapError_eq_ok_iff.1 hreply)
  | setex _ value ttl => exact ks.get?_live_setWithTtl key (.string value) (hc ttl rfl)
  | psetex _ value ttl => exact ks.get?_live_setWithTtl key (.string value) (hc ttl rfl)
  | getset _ value =>
    obtain ⟨found, hfound, -⟩ := map_eq_ok_iff.1 (mapError_eq_ok_iff.1 hreply)
    exact StringCommand.get?_live_getset hfound
  | mset before _ value hlast => exact StringCommand.get?_live_putAll before hlast

theorem Keyspace.value_of_live_access {α : Type} (ks : Keyspace) (target : Bytes)
    (f : Slot → α × Slot) (hf : ∀ slot, ∀ e' ∈ (f slot).2, ∃ e ∈ slot, e'.value = e.value)
    (key : Bytes) : ∀ e' ∈ (ks.access target f).2.live.get? key,
      ∃ e ∈ ks.live.get? key, e'.value = e.value := by
  intro e' he'
  rw [get?_live_access] at he'
  split at he'
  · next heq =>
    rw [heq]
    exact hf _ e' (Option.filter_eq_some_iff.1 he').1
  · exact ⟨e', he', rfl⟩

theorem KeyCommand.value_of_redates [Glob.Matcher] {c : KeyCommand} (hc : c.redates = true)
    (ks : Keyspace) (key : Bytes) : ∀ e' ∈ (c.exec ks).2.live.get? key,
      ∃ e ∈ ks.live.get? key, e'.value = e.value := by
  have hredated (deadline : Option Nat) (slot : Slot) :
      ∀ e' ∈ slot.map (fun e => { e with deadline }), ∃ e ∈ slot, e'.value = e.value := by
    intro e' he'
    obtain ⟨e, he, rfl⟩ := Option.map_eq_some_iff.1 he'
    exact ⟨e, he, rfl⟩
  have hexpired (target : Bytes) (millis : Int) :
      ∀ e' ∈ (expireAfter ks target millis).2.live.get? key,
        ∃ e ∈ ks.live.get? key, e'.value = e.value := by
    unfold expireAfter
    split
    · exact ks.value_of_live_access target (fun slot => (slot.map Entry.value, none))
        (fun _ _ => nofun) key
    · exact ks.value_of_live_access target (Slot.expire (deadlineAfter ks.now millis.toNat))
        (hredated _) key
  cases c with
  | expire target seconds => exact hexpired target _
  | pexpire target millis => exact hexpired target _
  | persist target => exact ks.value_of_live_access target Slot.persist (hredated none) key
  | _ => cases hc

namespace Command

/-- All commands but the eight declared ones keep the type and the deadline of what they leave live,
and create keys without a deadline. Those that write a key as a whole bind it, if they succeed, to
the string and under the deadline that they state, whatever was there before; the three that move
deadlines leave the values as they are. -/
theorem type_and_deadline_change_as_declared [Glob.Matcher] {request : Frame} {c : Command}
    (hread : ofFrame request = .ok c) (client : Client) (ks : Keyspace) :
    let left := (c.exec ks client).2.1
    (c.redeclares = false → ∀ key, Slot.Steady (ks.live.get? key) (left.live.get? key)) ∧
      (∀ reply, (c.exec ks client).1 = .ok reply →
        ∀ key e, c.Writes ks key e → left.live.get? key = some e) ∧
      ∀ kc : KeyCommand, c = .keys kc → kc.redates = true →
        ∀ key, ∀ e' ∈ left.live.get? key, ∃ e ∈ ks.live.get? key, e'.value = e.value := by
  have htimed : c.WellTimed := wellTimed_of_ofFrame hread
  refine ⟨fun hc key => steady hc client ks key, fun reply hreply key e hwrites => ?_, ?_⟩
  · exact get?_live_of_writes htimed client hreply hwrites
  · rintro kc rfl hredates key
    exact KeyCommand.value_of_redates hredates ks key

/-- One key has expired and one is still live, both with a list: where the deadline is kept, a
string gets that of the live key and none in place of the other. -/
theorem set_keeps_deadline_of_live_key :
    let e : Entry := ⟨.list [[120]], some 20⟩
    let ks : Keyspace := {
      entries := (Table.empty.insert [97] { e with deadline := some 5 }).insert [98] e
      now := 10 }
    let client : Client := { id := 1 }
    let frame (words : List String) : Frame := .bulkArray (words.map Bytes.ofString)
    let set (key : Bytes) : Command := .strings (.set key [121] { expiry := some .keep })
    ofFrame (frame ["SET", "a", "y", "KEEPTTL"]) = .ok (set [97]) ∧
      ofFrame (frame ["SET", "b", "y", "KEEPTTL"]) = .ok (set [98]) ∧
      ((set [97]).exec ks client).2.1.live.get? [97] = some ⟨.string [121], none⟩ ∧
      ((set [98]).exec ks client).2.1.live.get? [98] = some ⟨.string [121], some 20⟩ := by
  intro e ks client frame set
  have hread : ofFrame (frame ["SET", "a", "y", "KEEPTTL"]) = .ok (set [97]) := by decide +kernel
  have hread' : ofFrame (frame ["SET", "b", "y", "KEEPTTL"]) = .ok (set [98]) := by decide +kernel
  have hok : ((set [97]).exec ks client).1 = .ok .ok := rfl
  have hok' : ((set [98]).exec ks client).1 = .ok .ok := rfl
  obtain ⟨-, hwritten, -⟩ := type_and_deadline_change_as_declared hread client ks
  obtain ⟨-, hwritten', -⟩ := type_and_deadline_change_as_declared hread' client ks
  exact ⟨hread, hread', hwritten _ hok [97] _ (.set [97] [121] trivial),
    hwritten' _ hok' [98] _ (.set [98] [121] trivial)⟩

end Command
end RespStore
