import RespStore.Keyspace

/-! What commands do to a keyspace: they are made of accesses to given keys, and an access changes
what it finds in one of a few ways. -/
namespace RespStore

namespace Entry

theorem isExpired_eq_false_iff {now : Nat} {e : Entry} :
    e.isExpired now = false ↔ ∀ d ∈ e.deadline, now < d := by
  obtain ⟨value, deadline⟩ := e
  cases deadline <;> simp [isExpired]

theorem isExpired_mono {now later : Nat} (h : now ≤ later) {e : Entry}
    (he : e.isExpired now = true) : e.isExpired later = true := by
  obtain ⟨value, _ | d⟩ := e
  · cases he
  · simp only [isExpired, decide_eq_true_eq] at he ⊢
    omega

end Entry

/-- An empty collection. -/
def Value.isVoid : Value → Bool
  | .string _ => false
  | .list items => items.isEmpty
  | .set members => members.isEmpty
  | .sortedSet members => members.isEmpty
  | .hash fields => fields.isEmpty

def Collection.typeName (α : Type) [Collection α] : String :=
  (Collection.toValue (Collection.empty : α)).typeName

/-- Collections that are empty exactly when their values are, and that are all the values of one
type. -/
class LawfulCollection (α : Type) [Collection α] : Prop where
  isVoid_toValue : ∀ c : α, (Collection.toValue c).isVoid = Collection.isEmpty c
  isSome_ofValue?_iff : ∀ v : Value,
    (Collection.ofValue? v : Option α).isSome = true ↔ v.typeName = Collection.typeName α

instance : LawfulCollection (List Bytes) where
  isVoid_toValue _ := rfl
  isSome_ofValue?_iff v := by
    cases v <;> simp [Collection.ofValue?, Collection.typeName, Collection.toValue, Value.typeName]

instance : LawfulCollection ByteSet where
  isVoid_toValue _ := rfl
  isSome_ofValue?_iff v := by
    cases v <;> simp [Collection.ofValue?, Collection.typeName, Collection.toValue, Value.typeName]

instance : LawfulCollection SortedSet where
  isVoid_toValue _ := rfl
  isSome_ofValue?_iff v := by
    cases v <;> simp [Collection.ofValue?, Collection.typeName, Collection.toValue, Value.typeName]

instance : LawfulCollection (Table Bytes) where
  isVoid_toValue _ := rfl
  isSome_ofValue?_iff v := by
    cases v <;> simp [Collection.ofValue?, Collection.typeName, Collection.toValue, Value.typeName]

namespace Slot

/-- Nothing is there, or an entry that has not expired. -/
def LiveAt (now : Nat) (slot : Slot) : Prop := ∀ d ∈ slot.bind (·.deadline), now < d

/-- Nothing is there, or a value that is no empty collection. -/
def Filled (slot : Slot) : Prop := ∀ e ∈ slot, e.value.isVoid = false

def Untouched (_now : Nat) (found left : Slot) : Prop := left = found

/-- Ways to change in place what is found, under the deadline that is there. -/
inductive Edit (now : Nat) : Slot → Slot → Prop
  | keep (slot : Slot) : Edit now slot slot
  | clear (slot : Slot) : Edit now slot none
  | string {slot : Slot} {found : Option Bytes} (h : string? slot = .ok found) (data : Bytes) :
      Edit now slot (some (overwrite slot (.string data)))
  | collection {α : Type} [Collection α] [LawfulCollection α] {slot : Slot} {found : Option α}
      (h : collection? α slot = .ok found) (c : α) (hc : Collection.isEmpty c = false) :
      Edit now slot (some ⟨Collection.toValue c, slot.bind (·.deadline)⟩)

/-- A string is left in place of a string or of nothing. -/
def Overwrites (found left : Slot) : Prop :=
  ∃ old data, string? found = .ok old ∧ left = some (overwrite found (.string data))

/-- All that may become of a collection is related. -/
structure Admits (α : Type) [Collection α] (R : Nat → Slot → Slot → Prop) : Prop where
  upsert : ∀ {now : Nat} {slot left : Slot} {β : Type} {f : α → β × α} {result : β},
    upsert f slot = .ok (result, left) → R now slot left
  update : ∀ {now : Nat} {slot left : Slot} {β : Type} {f : α → β × α} {result : Option β},
    update f slot = .ok (result, left) → R now slot left

/-- No deadline, or one after a time to live that is among `ttls`. -/
def Stated (ttls : Nat → Prop) (now : Nat) (deadline : Option Nat) : Prop :=
  deadline = none ∨ ∃ ttl, ttls ttl ∧ deadline = deadlineAfter now ttl

/-- Ways to change what is found: in place; by a string, in place of a value of any type too; or in
the deadline. A new deadline is as stated. -/
inductive Change (ttls : Nat → Prop) (now : Nat) : Slot → Slot → Prop
  | edit {found left : Slot} (h : Edit now found left) : Change ttls now found left
  | overwrite (slot : Slot) (data : Bytes) :
      Change ttls now slot (some (overwrite slot (.string data)))
  | write (slot : Slot) (data : Bytes) {deadline : Option Nat} (h : Stated ttls now deadline) :
      Change ttls now slot (some ⟨.string data, deadline⟩)
  | redate (e : Entry) {deadline : Option Nat} (h : Stated ttls now deadline) :
      Change ttls now (some e) (some { e with deadline })

/-- All that may become of what is found is related, collections that change apart. -/
structure AdmitsChanges (ttls : Nat → Prop) (R : Nat → Slot → Slot → Prop) : Prop where
  keep : ∀ {now : Nat} (slot : Slot), R now slot slot
  clear : ∀ {now : Nat} (slot : Slot), R now slot none
  overwrite : ∀ {now : Nat} (slot : Slot) (data : Bytes),
    R now slot (some (overwrite slot (.string data)))
  write : ∀ {now : Nat} (slot : Slot) (data : Bytes) {deadline : Option Nat},
    Stated ttls now deadline → R now slot (some ⟨.string data, deadline⟩)
  redate : ∀ {now : Nat} (e : Entry) {deadline : Option Nat}, Stated ttls now deadline →
    R now (some e) (some { e with deadline })

variable {ttls ttls' : Nat → Prop} {now : Nat} {slot left : Slot}

theorem Change.keep (slot : Slot) : Change ttls now slot slot := .edit (.keep slot)

theorem Stated.mono (httls : ∀ ttl, ttls ttl → ttls' ttl) {deadline : Option Nat}
    (h : Stated ttls now deadline) : Stated ttls' now deadline := by
  rcases h with hnone | ⟨ttl, httl, hdeadline⟩
  · exact .inl hnone
  · exact .inr ⟨ttl, httls ttl httl, hdeadline⟩

theorem Change.mono (httls : ∀ ttl, ttls ttl → ttls' ttl) (h : Change ttls now slot left) :
    Change ttls' now slot left := by
  cases h with
  | edit h => exact .edit h
  | overwrite _ data => exact .overwrite slot data
  | write _ data hd => exact .write slot data (hd.mono httls)
  | redate e hd => exact .redate e (hd.mono httls)

@[simp] theorem liveAt_none : LiveAt now none := by simp [LiveAt]

theorem liveAt_some_iff {e : Entry} : LiveAt now (some e) ↔ e.isExpired now = false :=
  Entry.isExpired_eq_false_iff.symm

theorem filled_none : Filled none := nofun

theorem filled_some_iff {e : Entry} : Filled (some e) ↔ e.value.isVoid = false := by
  simp [Filled]

theorem Stated.lt {deadline : Option Nat} (h : Stated (0 < ·) now deadline) :
    ∀ d ∈ deadline, now < d := by
  intro d hd
  rcases h with rfl | ⟨ttl, httl, rfl⟩
  · cases hd
  · unfold deadlineAfter at hd
    split at hd
    · cases hd
      omega
    · cases hd

theorem Edit.liveAt (h : Edit now slot left) (hslot : LiveAt now slot) : LiveAt now left := by
  cases h with
  | keep => exact hslot
  | clear => exact liveAt_none
  | string _ data => exact hslot
  | collection _ c hc => exact hslot

theorem Edit.filled (h : Edit now slot left) (hslot : Filled slot) : Filled left := by
  cases h with
  | keep => exact hslot
  | clear => exact filled_none
  | string _ data => exact filled_some_iff.2 rfl
  | collection _ c hc => exact filled_some_iff.2 ((LawfulCollection.isVoid_toValue c).trans hc)

theorem Change.liveAt (h : Change (0 < ·) now slot left) (hslot : LiveAt now slot) :
    LiveAt now left := by
  cases h with
  | edit h => exact h.liveAt hslot
  | overwrite _ data => exact hslot
  | write _ data hd => exact hd.lt
  | redate e hd => exact hd.lt

theorem Change.filled (h : Change ttls now slot left) (hslot : Filled slot) : Filled left := by
  cases h with
  | edit h => exact h.filled hslot
  | overwrite _ data => exact filled_some_iff.2 rfl
  | write _ data hd => exact filled_some_iff.2 rfl
  | redate e hd =>
    have he : e.value.isVoid = false := filled_some_iff.1 hslot
    exact filled_some_iff.2 he

theorem Overwrites.edit (h : Overwrites slot left) : Edit now slot left := by
  obtain ⟨old, data, hfound, rfl⟩ := h
  exact .string hfound data

theorem isEmpty_of_collection? {α : Type} [Collection α] [LawfulCollection α] {c : α}
    (hslot : Filled slot) (h : collection? α slot = .ok (some c)) : Collection.isEmpty c = false := by
  unfold collection? at h
  split at h
  · cases h
  · split at h
    · next e _ hvalue =>
      cases h
      rw [← LawfulCollection.isVoid_toValue, ← Collection.ofValue?_eq_some_iff.1 hvalue]
      exact filled_some_iff.1 hslot
    · cases h

theorem edit_ofCollection {α : Type} [Collection α] [LawfulCollection α] {found : Option α}
    (h : collection? α slot = .ok found) (c : α) :
    Edit now slot (ofCollection (slot.bind (·.deadline)) c) := by
  unfold ofCollection
  split
  · exact .clear slot
  · next hc => exact .collection h c (Bool.eq_false_iff.2 hc)

theorem edit_of_upsert {α β : Type} [Collection α] [LawfulCollection α] {f : α → β × α}
    {result : β} (hf : upsert f slot = .ok (result, left)) : Edit now slot left := by
  unfold upsert at hf
  split at hf
  · cases hf
  · next hfound =>
    cases hf
    exact edit_ofCollection hfound _

theorem edit_of_update {α β : Type} [Collection α] [LawfulCollection α] {f : α → β × α}
    {result : Option β} (hf : update f slot = .ok (result, left)) : Edit now slot left := by
  unfold update at hf
  split at hf
  · cases hf
  · cases hf
    exact .keep slot
  · next hfound =>
    cases hf
    exact edit_ofCollection hfound _

theorem admits_edit {α : Type} [Collection α] [LawfulCollection α] : Admits α Edit :=
  ⟨edit_of_upsert, edit_of_update⟩

theorem admits_change {α : Type} [Collection α] [LawfulCollection α] : Admits α (Change ttls) :=
  ⟨fun h => .edit (edit_of_upsert h), fun h => .edit (edit_of_update h)⟩

theorem overwrites_of_incrBy {range : IntegerRange} {n result : Int}
    (hf : incrBy range n slot = .ok (result, left)) : Overwrites slot left := by
  unfold incrBy at hf
  split at hf
  · cases hf
  · next hfound =>
    dsimp only at hf
    split at hf
    · cases hf
    · split at hf
      · cases hf
        exact ⟨_, _, hfound, rfl⟩
      · cases hf

theorem overwrites_of_incrByFloat {x result : Binary64}
    (hf : incrByFloat x slot = .ok (result, left)) : Overwrites slot left := by
  unfold incrByFloat at hf
  split at hf
  · cases hf
  · next hfound =>
    dsimp only at hf
    split at hf
    · cases hf
    · split at hf
      · cases hf
      · cases hf
        exact ⟨_, _, hfound, rfl⟩

theorem edit_of_incrBy {range : IntegerRange} {n result : Int}
    (hf : incrBy range n slot = .ok (result, left)) : Edit now slot left :=
  (overwrites_of_incrBy hf).edit

theorem edit_of_incrByFloat {x result : Binary64}
    (hf : incrByFloat x slot = .ok (result, left)) : Edit now slot left :=
  (overwrites_of_incrByFloat hf).edit

theorem admitsChanges_change : AdmitsChanges ttls (Change ttls) where
  keep := .keep
  clear slot := .edit (.clear slot)
  overwrite := .overwrite
  write slot data _ h := .write slot data h
  redate e _ h := .redate e h

namespace AdmitsChanges

variable {R : Nat → Slot → Slot → Prop}

theorem mono (hR : AdmitsChanges ttls' R) (httls : ∀ ttl, ttls ttl → ttls' ttl) :
    AdmitsChanges ttls R where
  keep := hR.keep
  clear := hR.clear
  overwrite := hR.overwrite
  write slot data _ h := hR.write slot data (h.mono httls)
  redate e _ h := hR.redate e (h.mono httls)

theorem overwrites (hR : AdmitsChanges ttls R) (h : Overwrites slot left) : R now slot left := by
  obtain ⟨old, data, -, rfl⟩ := h
  exact hR.overwrite slot data

theorem expire (hR : AdmitsChanges ttls R) (slot : Slot) {ttl : Nat} (h : ttls ttl) :
    R now slot (Slot.expire (deadlineAfter now ttl) slot).2 := by
  cases slot with
  | none => exact hR.keep none
  | some e => exact hR.redate e (.inr ⟨ttl, h, rfl⟩)

theorem persist (hR : AdmitsChanges ttls R) (slot : Slot) :
    R now slot (Slot.persist slot).2 := by
  cases slot with
  | none => exact hR.keep none
  | some e => exact hR.redate e (.inl rfl)

end AdmitsChanges

end Slot

namespace Keyspace

/-- The operations made of accesses to some of `keys`, where `R` relates what an access leaves to
what it finds at an instant. What an access does may depend on the time, and what is done next on
what was found. -/
inductive Accesses (R : Nat → Slot → Slot → Prop) (keys : List Bytes) :
    {α : Type} → (Keyspace → α × Keyspace) → Prop
  | done {α : Type} (a : α) : Accesses R keys fun ks => (a, ks)
  | access {α : Type} {key : Bytes} (hkey : key ∈ keys) (f : Nat → Slot → α × Slot)
      (hf : ∀ now slot, R now slot (f now slot).2) :
      Accesses R keys fun ks => ks.access key (f ks.now)
  | put {key : Bytes} (hkey : key ∈ keys) (entry : Nat → Entry)
      (hentry : ∀ now slot, R now slot (some (entry now))) :
      Accesses R keys fun ks => ((), ks.put key (entry ks.now))
  | andThen {α β : Type} {op : Keyspace → α × Keyspace} {next : α → Keyspace → β × Keyspace} :
      Accesses R keys op → (∀ a, Accesses R keys (next a)) →
      Accesses R keys fun ks => next (op ks).1 (op ks).2

namespace Accesses

variable {R S : Nat → Slot → Slot → Prop} {keys : List Bytes} {α β : Type} {key : Bytes}

theorem mono {op : Keyspace → α × Keyspace} (h : Accesses R keys op)
    (hRS : ∀ {now found left}, R now found left → S now found left) : Accesses S keys op := by
  induction h with
  | done a => exact done a
  | access hkey f hf => exact access hkey f fun now slot => hRS (hf now slot)
  | put hkey entry hentry => exact put hkey entry fun now slot => hRS (hentry now slot)
  | andThen _ _ ihop ihnext => exact andThen ihop ihnext

theorem of_untouched {op : Keyspace → α × Keyspace} (h : Accesses Slot.Untouched keys op)
    (hkeep : ∀ {now : Nat} (slot : Slot), R now slot slot) : Accesses R keys op :=
  h.mono fun {now found left} (heq : left = found) => by
    subst heq
    exact hkeep left

theorem changes {ttls : Nat → Prop} {op : Keyspace → α × Keyspace}
    (h : Accesses Slot.Edit keys op) : Accesses (Slot.Change ttls) keys op :=
  h.mono .edit

theorem map {op : Keyspace → α × Keyspace} (h : Accesses R keys op) (g : α → β) :
    Accesses R keys fun ks => (g (op ks).1, (op ks).2) :=
  andThen h fun a => done (g a)

theorem read (hkey : key ∈ keys) (f : Nat → Slot → α) :
    Accesses Slot.Untouched keys fun ks => ks.read key (f ks.now) :=
  access hkey (fun now slot => (f now slot, slot)) fun _ _ => rfl

/-- What an access that may fail does: it changes nothing if it fails. -/
def tried (f : Slot → Except StoreError (α × Slot)) (slot : Slot) : Except StoreError α × Slot :=
  match f slot with
  | .ok (result, left) => (.ok result, left)
  | .error e => (.error e, slot)

theorem tryAccess (hkey : key ∈ keys) (hkeep : ∀ {now : Nat} (slot : Slot), R now slot slot)
    {f : Slot → Except StoreError (α × Slot)}
    (hf : ∀ {now slot result left}, f slot = .ok (result, left) → R now slot left) :
    Accesses R keys fun ks => ks.tryAccess key f := by
  refine access hkey (fun _ => tried f) fun now slot => ?_
  unfold tried
  split
  · next hok => exact hf hok
  · exact hkeep slot

theorem remove (hkey : key ∈ keys) (hclear : ∀ {now : Nat} (slot : Slot), R now slot none) :
    Accesses R keys fun ks => ks.remove key :=
  access hkey (fun _ slot => (slot.map Entry.value, none)) fun _ slot => hclear slot

theorem forEach {op : Keyspace → Bytes → α × Keyspace} {targets : List Bytes}
    (hop : ∀ key ∈ targets, Accesses R keys fun ks => op ks key) :
    Accesses R keys fun ks => ks.forEach op targets := by
  induction targets with
  | nil => exact done []
  | cons key rest ih =>
    have hhead := hop key List.mem_cons_self
    have hrest := ih fun k hk => hop k (List.mem_cons_of_mem _ hk)
    exact andThen hhead fun a => map hrest (a :: ·)

end Accesses

/-- The operations made of accesses to some of `keys` that change what they find, as `R` says, only
if they do not fail. -/
inductive Attempts (R : Nat → Slot → Slot → Prop) (keys : List Bytes) :
    {α : Type} → (Keyspace → Except StoreError α × Keyspace) → Prop
  | reads {α : Type} {op : Keyspace → Except StoreError α × Keyspace}
      (h : Accesses Slot.Untouched keys op) : Attempts R keys op
  | sure {α : Type} {op : Keyspace → α × Keyspace} (h : Accesses R keys op) :
      Attempts R keys fun ks => (.ok (op ks).1, (op ks).2)
  | tryAccess {α : Type} {key : Bytes} (hkey : key ∈ keys)
      {f : Slot → Except StoreError (α × Slot)}
      (hf : ∀ {now slot result left}, f slot = .ok (result, left) → R now slot left) :
      Attempts R keys fun ks => ks.tryAccess key f
  | map {α β : Type} {op : Keyspace → Except StoreError α × Keyspace} (h : Attempts R keys op)
      (g : α → β) : Attempts R keys fun ks => ((op ks).1.map g, (op ks).2)
  | andThen {α β : Type} {op : Keyspace → α × Keyspace}
      {next : α → Keyspace → Except StoreError β × Keyspace} (h : Accesses Slot.Untouched keys op)
      (hnext : ∀ a, Attempts R keys (next a)) :
      Attempts R keys fun ks => next (op ks).1 (op ks).2

namespace Attempts

variable {R : Nat → Slot → Slot → Prop} {keys : List Bytes} {α β : Type} {key : Bytes}

theorem upsert_of [Collection α] (hR : Slot.Admits α R) (hkey : key ∈ keys) (f : α → β × α) :
    Attempts R keys fun ks => ks.upsert key f :=
  tryAccess hkey hR.upsert

theorem update_of [Collection α] (hR : Slot.Admits α R) (hkey : key ∈ keys) (f : α → β × α) :
    Attempts R keys fun ks => ks.update key f :=
  tryAccess hkey hR.update

theorem upsert [Collection α] [LawfulCollection α] (hkey : key ∈ keys) (f : α → β × α) :
    Attempts Slot.Edit keys fun ks => ks.upsert key f :=
  upsert_of Slot.admits_edit hkey f

theorem update [Collection α] [LawfulCollection α] (hkey : key ∈ keys) (f : α → β × α) :
    Attempts Slot.Edit keys fun ks => ks.update key f :=
  update_of Slot.admits_edit hkey f

theorem accesses {op : Keyspace → Except StoreError α × Keyspace} (h : Attempts R keys op)
    (hkeep : ∀ {now : Nat} (slot : Slot), R now slot slot) : Accesses R keys op := by
  induction h with
  | reads h => exact h.of_untouched hkeep
  | sure h => exact h.map Except.ok
  | tryAccess hkey hf => exact .tryAccess hkey hkeep hf
  | map _ g ih => exact ih.map (Except.map g)
  | andThen h _ ihnext => exact .andThen (h.of_untouched hkeep) ihnext

end Attempts
end Keyspace
end RespStore
