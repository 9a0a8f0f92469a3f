import RespStore.Proofs.Occurrences
import RespStore.Proofs.SortedSet.Removal
import RespStore.Proofs.Variadic.Commands

/-! Counts in replies account for what commands do to the number of elements under a key. -/
namespace RespStore

namespace Table

variable {β : Type}

/-- By induction on the bindings: past the place of a key nothing is bound to it. -/
theorem length_insertInto {bindings : List (Bytes × β)} (h : bindings.Pairwise (·.1 < ·.1))
    (key : Bytes) (value : β) : (insertInto key value bindings).length =
      bindings.length + (findIn key bindings).isNone.toNat := by
  induction bindings with
  | nil => rfl
  | cons first rest ih =>
    obtain ⟨k, v⟩ := first
    obtain ⟨hfirst, hrest⟩ := List.pairwise_cons.1 h
    by_cases hlt : key < k
    · have hne : key ≠ k := by
        rintro rfl
        exact lt_irrefl key hlt
      -- All that follows is bound to keys past this one.
      have habsent : findIn key rest = none := by
        by_contra hfound
        obtain ⟨value', hvalue⟩ := Option.ne_none_iff_exists'.1 hfound
        exact lt_irrefl key (lt_trans hlt (hfirst _ (mem_of_findIn hvalue)))
      simp [insertInto, findIn, hlt, hne, habsent]
    · by_cases heq : key = k
      · subst heq
        simp [insertInto, findIn, hlt]
      · simp only [insertInto, findIn, hlt, heq, if_false, List.length_cons, ih hrest]
        omega

theorem size_insert (t : Table β) (key : Bytes) (value : β) :
    (t.insert key value).size = t.size + (!t.contains key).toNat := by
  have hnone : (findIn key t.toList).isNone = !t.contains key := by
    unfold contains get?
    cases findIn key t.toList <;> rfl
  rw [← hnone]
  exact length_insertInto t.ascending key value

theorem size_erase (t : Table β) (key : Bytes) :
    t.size = (t.erase key).size + (t.contains key).toNat := by
  cases hfound : t.get? key with
  | none =>
    have hkept : t.erase key = t := set_of_get?_eq hfound
    have habsent : t.contains key = false := by rw [contains, hfound, Option.isSome_none]
    rw [hkept, habsent]
    rfl
  | some value =>
    have hback : (t.erase key).insert key value = t :=
      (set_set t key none (some value)).trans (set_of_get?_eq hfound)
    have hgone : (t.erase key).contains key = false := by
      rw [contains, get?_erase, if_pos rfl, Option.isSome_none]
    have hpresent : t.contains key = true := by rw [contains, hfound, Option.isSome_some]
    have hsize := (t.erase key).size_insert key value
    rw [hback, hgone] at hsize
    rw [hpresent]
    exact hsize

end Table

section Tallies

variable {σ ι : Type} {step : σ → ι → Bool × σ}

/-- By induction on the items: where each step raises a measure by what it counts, so do all. -/
theorem measure_tally (measure : σ → Int)
    (hstep : ∀ s i, measure (step s i).2 = measure s + (step s i).1.toNat) (s : σ)
    (items : List ι) : measure (tally step s items).2 = measure s + (tally step s items).1 := by
  induction items generalizing s with
  | nil => exact (Int.add_zero _).symm
  | cons item rest ih =>
    have hfirst := hstep s item
    have hrest := ih (step s item).2
    unfold tally
    push_cast
    omega

variable {size : σ → Nat}

theorem size_tally_of_added (hstep : ∀ s i, size (step s i).2 = size s + (step s i).1.toNat)
    (s : σ) (items : List ι) : size (tally step s items).2 = size s + (tally step s items).1 := by
  have hraised (s : σ) (i : ι) : (size (step s i).2 : Int) = size s + (step s i).1.toNat := by
    exact_mod_cast hstep s i
  exact_mod_cast measure_tally (fun s => (size s : Int)) hraised s items

theorem size_tally_of_removed (hstep : ∀ s i, size s = size (step s i).2 + (step s i).1.toNat)
    (s : σ) (items : List ι) : size s = size (tally step s items).2 + (tally step s items).1 := by
  -- A size that falls is raised below zero.
  have hraised (s : σ) (i : ι) : -(size (step s i).2 : Int) = -size s + (step s i).1.toNat := by
    have hsize := hstep s i
    omega
  have hall := measure_tally (fun s => -(size s : Int)) hraised s items
  omega

end Tallies

namespace SortedSet

variable (z : SortedSet) (m : Bytes)

theorem size_insert (s : Binary64) : (z.insert m s).2.size =
    z.size + (decide ((z.insert m s).1 = .added)).toNat := by
  have hsize : (z.insert m s).2.size = z.size + (!(z.score? m).isSome).toNat := by
    unfold size
    rw [scores_insert]
    exact z.scores.size_insert m s.normalZero
  rw [hsize, insert_fst]
  cases z.score? m with
  | none => rfl
  | some old => by_cases hplace : old.place = s.place <;> simp [hplace]

theorem size_remove : z.size = (z.remove m).2.size + (z.remove m).1.toNat := by
  rw [remove_fst]
  cases hm : z.score? m with
  | none =>
    rw [remove_of_absent hm]
    rfl
  | some s =>
    have hsize := z.scores.size_erase m
    rw [Table.contains, show z.scores.get? m = some s from hm] at hsize
    rw [remove_of_present hm]
    exact hsize

theorem Without.size_eq {gone : List (Bytes × Binary64)} {z left : SortedSet}
    (h : z.Without gone left) (hz : z.WellFormed) : z.size = left.size + gone.length := by
  have hlength := h.perm.length_eq
  rw [List.length_append] at hlength
  rw [hz.size_eq, h.wellFormed.size_eq]
  omega

end SortedSet

/-- Unless changed scores count too, what is counted is what is added, under any condition. -/
theorem SortedSetCommand.size_addMember (condition : Option ScoreCondition) (z : SortedSet)
    (scored : Binary64 × Bytes) :
    (addMember condition false z scored).2.size =
      z.size + (addMember condition false z scored).1.toNat := by
  unfold addMember
  dsimp only
  split
  · rfl
  · rfl
  · have hsize := z.size_insert scored.2 scored.1
    split
    · next heq =>
      rw [heq] at hsize
      exact hsize
    · next heq =>
      rw [heq] at hsize
      exact hsize
    · next heq =>
      rw [heq] at hsize
      exact hsize

namespace ListCommand

theorem length_popHead (n : Nat) (items : List Bytes) :
    items.length = (popHead n items).2.length + (popHead n items).1.length := by
  unfold popHead
  rw [List.length_take, List.length_drop]
  omega

theorem length_popTail (n : Nat) (items : List Bytes) :
    items.length = (popTail n items).2.length + (popTail n items).1.length := by
  have hlength := length_popHead n items.reverse
  rw [popTail_eq, List.length_reverse]
  rwa [List.length_reverse] at hlength

theorem length_eraseFirst_le (element : Bytes) (n : Nat) (items : List Bytes) :
    (eraseFirst element n items).length ≤ items.length := by
  have hlength := length_eraseFirst element n items
  omega

theorem length_removeOccurrences (count : Int) (element : Bytes) (items : List Bytes) :
    items.length = (removeOccurrences count element items).2.length +
      (removeOccurrences count element items).1 := by
  unfold removeOccurrences
  dsimp only
  generalize (if count = 0 then items.length else count.natAbs) = limit
  split
  · have hle := length_eraseFirst_le element limit items.reverse
    rw [List.length_reverse] at hle ⊢
    omega
  · have hle := length_eraseFirst_le element limit items
    omega

end ListCommand

/-- How many elements a value is made up of. A string is one. -/
def Value.cardinality : Value → Nat
  | .string _ => 1
  | .list items => items.length
  | .set members => members.size
  | .sortedSet members => members.size
  | .hash fields => fields.size

theorem Value.cardinality_eq_zero_iff (v : Value) : v.cardinality = 0 ↔ v.isVoid = true := by
  have hlength {β : Type} (items : List β) : items.length = 0 ↔ items.isEmpty = true := by
    rw [List.length_eq_zero_iff, List.isEmpty_iff]
  cases v with
  | string data => exact iff_of_false nofun nofun
  | list items => exact hlength items
  | set members => exact hlength members.toList
  | sortedSet members => exact hlength members.scores.toList
  | hash fields => exact hlength fields.toList

namespace Slot

def cardinality (slot : Slot) : Nat := slot.elim 0 (·.value.cardinality)

theorem Filled.cardinality_pos_iff {slot : Slot} (h : slot.Filled) :
    0 < slot.cardinality ↔ slot.isSome = true := by
  cases slot with
  | none => exact iff_of_false (Nat.lt_irrefl 0) nofun
  | some e =>
    have hvoid : ¬ e.value.isVoid = true := Bool.eq_false_iff.1 (filled_some_iff.1 h)
    rw [← e.value.cardinality_eq_zero_iff] at hvoid
    exact iff_of_true (Nat.pos_of_ne_zero hvoid) rfl

end Slot

namespace Collection

variable {α : Type} [Collection α]

def cardinality (c : α) : Nat := (toValue c).cardinality

variable [LawfulCollection α]

theorem cardinality_eq_zero_iff (c : α) : cardinality c = 0 ↔ isEmpty c = true := by
  rw [cardinality, Value.cardinality_eq_zero_iff, LawfulCollection.isVoid_toValue]

theorem cardinality_ofCollection (deadline : Option Nat) (c : α) :
    (Slot.ofCollection deadline c).cardinality = cardinality c := by
  cases hempty : isEmpty c with
  | true =>
    rw [Slot.ofCollection_of_isEmpty hempty, (cardinality_eq_zero_iff c).2 hempty]
    rfl
  | false =>
    rw [Slot.ofCollection_of_not_isEmpty hempty]
    rfl

end Collection

namespace Keyspace

def cardinality (ks : Keyspace) (key : Bytes) : Nat := Slot.cardinality (ks.live.get? key)

theorem live_remove (ks : Keyspace) (key : Bytes) :
    (ks.remove key).2.live = ks.live.erase key :=
  live_of_entries_set (ks.now_access key _) (ks.entries_access key _) Slot.liveAt_none

theorem size_remove (ks : Keyspace) (key : Bytes) :
    ks.size = (ks.remove key).2.size + (ks.remove key).1.isSome.toNat := by
  have hfst : (ks.remove key).1 = (ks.live.get? key).map (·.value) := ks.access_fst key _
  unfold size
  rw [live_remove, hfst, Option.isSome_map]
  exact ks.live.size_erase key

/-- By induction on the keys: one that is named again is gone by then. -/
theorem size_forEach_remove (ks : Keyspace) (keys : List Bytes) :
    ks.size = (ks.forEach remove keys).2.size + (ks.forEach remove keys).1.countP (·.isSome) := by
  induction keys generalizing ks with
  | nil => rfl
  | cons key rest ih =>
    have hfirst := ks.size_remove key
    have hrest := ih (ks.remove key).2
    unfold forEach
    dsimp only
    rw [List.countP_cons]
    cases hfound : (ks.remove key).1.isSome with
    | true =>
      rw [hfound, Bool.toNat_true] at hfirst
      rw [if_pos rfl]
      omega
    | false =>
      rw [hfound, Bool.toNat_false] at hfirst
      rw [if_neg Bool.false_ne_true]
      omega

end Keyspace

/-- What a reply says of the number of elements under a key: what it was and stays, how many have
been added or taken out, what it is after so many were pushed, or, by listing them, how many were
popped. -/
inductive Account where
  | told
  | added
  | removed
  | pushed (n : Nat)
  | popped

/-- A reply gives an account of the number of elements before and after. Where there is nothing to
pop from, nothing is listed. -/
def Account.Balances (before after : Nat) (reply : Frame) : Account → Prop
  | .told => reply = .count before ∧ after = before
  | .added => ∃ n, reply = .count n ∧ after = before + n
  | .removed => ∃ n, reply = .count n ∧ before = after + n
  | .pushed n => reply = .count after ∧ after = before + n
  | .popped =>
    (before = 0 ∧ after = 0 ∧ reply = .nullArray) ∨
      0 < before ∧ ∃ values, reply = .bulkArray values ∧ before = after + values.length

namespace Command
open Collection

/-- The commands whose replies account for the elements under a key, and how. Additions to sorted
sets do so unless they are asked to count changes. -/
inductive Accounts : Command → Bytes → Account → Prop
  | llen (key : Bytes) : Accounts (.lists (.llen key)) key .told
  | scard (key : Bytes) : Accounts (.sets (.scard key)) key .told
  | zcard (key : Bytes) : Accounts (.sortedSets (.zcard key)) key .told
  | hlen (key : Bytes) : Accounts (.hashes (.hlen key)) key .told
  | sadd (key : Bytes) (members : List Bytes) : Accounts (.sets (.sadd key members)) key .added
  | hset (key : Bytes) (bindings : List (Bytes × Bytes)) :
    Accounts (.hashes (.hset key bindings)) key .added
  | zadd (key : Bytes) (condition : Option ScoreCondition) (members : List (Binary64 × Bytes)) :
    Accounts (.sortedSets (.zadd key condition false members)) key .added
  | srem (key : Bytes) (members : List Bytes) : Accounts (.sets (.srem key members)) key .removed
  | hdel (key : Bytes) (fields : List Bytes) : Accounts (.hashes (.hdel key fields)) key .removed
  | zrem (key : Bytes) (members : List Bytes) :
    Accounts (.sortedSets (.zrem key members)) key .removed
  | zremrangebyrank (key : Bytes) (start stop : Int64) :
    Accounts (.sortedSets (.zremrangebyrank key start stop)) key .removed
  | zremrangebyscore (key : Bytes) (min max : ScoreBound) :
    Accounts (.sortedSets (.zremrangebyscore key min max)) key .removed
  | lrem (key : Bytes) (count : Int64) (element : Bytes) :
    Accounts (.lists (.lrem key count element)) key .removed
  | lpush (key : Bytes) (values : List Bytes) :
    Accounts (.lists (.lpush key values)) key (.pushed values.length)
  | rpush (key : Bytes) (values : List Bytes) :
    Accounts (.lists (.rpush key values)) key (.pushed values.length)
  | lpop (key : Bytes) (n : Nat) : Accounts (.lists (.lpop key (some n))) key .popped
  | rpop (key : Bytes) (n : Nat) : Accounts (.lists (.rpop key (some n))) key .popped

section
variable [Glob.Matcher]

/-- A command fails because what is under the key is of another type, or its reply accounts for what
it does to the number of elements there. -/
def Accounted (c : Command) (key : Bytes) (account : Account) (ks : Keyspace) (client : Client) :
    Prop :=
  ((c.exec ks client).1 = .error (.store .wrongType) ∧
    ∃ typeName, c.Addresses key typeName ∧ Slot.Mistyped typeName (ks.live.get? key)) ∨
  ∃ reply, (c.exec ks client).1 = .ok reply ∧
    account.Balances (ks.cardinality key) ((c.exec ks client).2.1.cardinality key) reply

section Collections

variable {α β ι : Type} [Collection α] [LawfulCollection α] {c : Command} {key : Bytes}
  {account : Account} {ks : Keyspace} {client : Client}

theorem accounted (hks : ks.Filled) (hat : c.Addresses key (typeName α))
    (h : ∀ (deadline : Option Nat) (x : α), Slot.Fresh deadline x →
      ks.live.get? key = Slot.ofCollection deadline x → ∃ (reply : Frame) (left : α),
        (c.exec ks client).1 = .ok reply ∧
        (c.exec ks client).2.1.live = ks.live.set key (Slot.ofCollection deadline left) ∧
        account.Balances (cardinality x) (cardinality left) reply) :
    c.Accounted key account ks client := by
  by_cases hmistyped : Slot.Mistyped (typeName α) (ks.live.get? key)
  · exact .inl ⟨(hat.wrongType_iff ks client).2 hmistyped, _, hat, hmistyped⟩
  · obtain ⟨deadline, x, hx, hheld⟩ := Slot.exists_ofCollection (hks.get?_live key) hmistyped
    obtain ⟨reply, left, hreply, hlive, hbalances⟩ := h deadline x hx hheld
    have hbefore : ks.cardinality key = cardinality x := by
      rw [Keyspace.cardinality, hheld, cardinality_ofCollection]
    have hafter : (c.exec ks client).2.1.cardinality key = cardinality left := by
      rw [Keyspace.cardinality, hlive, Table.get?_set, if_pos rfl, cardinality_ofCollection]
    refine .inr ⟨reply, hreply, ?_⟩
    rwa [hbefore, hafter]

theorem accounted_of_acts {fit : Option Nat → α → Prop} {f : α → Frame × α} (hks : ks.Filled)
    (hat : c.Addresses key (typeName α)) (hacts : c.Acts key fit f)
    (hfresh : ∀ {deadline x}, Slot.Fresh deadline x → fit deadline x)
    (hf : ∀ x, account.Balances (cardinality x) (cardinality (f x).2) (f x).1) :
    c.Accounted key account ks client := by
  apply accounted hks hat
  intro deadline x hx hheld
  obtain ⟨hreply, hlive⟩ := hacts ks client deadline x (hfresh hx) hheld
  exact ⟨(f x).1, (f x).2, hreply, hlive, hf x⟩

theorem accounted_told (hks : ks.Filled) (hat : c.Addresses key (typeName α))
    {count : Option α → Nat} (hnone : count none = 0) (hsome : ∀ x, count (some x) = cardinality x)
    (hdoes : c.Does fun ks => answer (fun found => .count (count found)) (ks.getAs α key)) :
    c.Accounted key .told ks client := by
  apply accounted_of_acts hks hat (acts_read _ hdoes) (fun _ => trivial)
  intro x
  have hcount : count (if isEmpty x = true then none else some x) = cardinality x := by
    split
    · next hempty => rw [hnone, (cardinality_eq_zero_iff x).2 hempty]
    · exact hsome x
  exact ⟨congrArg Frame.count hcount, rfl⟩

theorem accounted_added (hks : ks.Filled) (hat : c.Addresses key (typeName α))
    (step : α → ι → Bool × α) (items : List ι)
    (hdoes : c.Does fun ks => answer .count (ks.upsert key fun x => tally step x items))
    (hstep : ∀ x i, cardinality (step x i).2 = cardinality x + (step x i).1.toNat) :
    c.Accounted key .added ks client := by
  apply accounted_of_acts hks hat (acts_upsert hdoes) id
  intro x
  exact ⟨_, rfl, size_tally_of_added hstep x items⟩

theorem accounted_removal (hks : ks.Filled) (hat : c.Addresses key (typeName α))
    {f : α → Nat × α}
    (hdoes : c.Does fun ks => answer (fun removed => .count (removed.getD 0)) (ks.update key f))
    (hidle : ∀ x, isEmpty x = true → f x = (0, x))
    (hf : ∀ x, cardinality x = cardinality (f x).2 + (f x).1) :
    c.Accounted key .removed ks client := by
  apply accounted_of_acts hks hat (acts_removal hdoes hidle) (fun _ => trivial)
  intro x
  exact ⟨_, rfl, hf x⟩

theorem accounted_removed (hks : ks.Filled) (hat : c.Addresses key (typeName α))
    (step : α → ι → Bool × α) (items : List ι)
    (hdoes : c.Does fun ks =>
      answer (fun removed => .count (removed.getD 0)) (ks.update key fun x => tally step x items))
    (hidle : ∀ x i, isEmpty x = true → step x i = (false, x))
    (hstep : ∀ x i, cardinality x = cardinality (step x i).2 + (step x i).1.toNat) :
    c.Accounted key .removed ks client := by
  apply accounted_removal hks hat hdoes
  · intro x hx
    exact tally_of_idle (fun i => hidle x i hx) items
  · exact fun x => size_tally_of_removed hstep x items

end Collections

section Lists

variable {c : Command} {key : Bytes} {ks : Keyspace} {client : Client}

theorem accounted_pushed {n : Nat} (hks : ks.Filled) (hat : c.Addresses key "list")
    (push : List Bytes → List Bytes)
    (hdoes : c.Does fun ks =>
      answer .count (ks.upsert key fun items => ((push items).length, push items)))
    (hpush : ∀ items, (push items).length = items.length + n) :
    c.Accounted key (.pushed n) ks client := by
  apply accounted_of_acts hks hat (acts_upsert hdoes) id
  intro items
  exact ⟨rfl, hpush items⟩

theorem accounted_popped (hks : ks.Filled) (hat : c.Addresses key "list") (n : Nat)
    {pop : List Bytes → List Bytes × List Bytes}
    (hdoes : c.Does fun ks => answer (ListCommand.popReply (some n)) (ks.update key pop))
    (hpop : ∀ items, items.length = (pop items).2.length + (pop items).1.length) :
    c.Accounted key .popped ks client := by
  have hempty (items : List Bytes) (h : isEmpty items = true) : (pop items).2 = items := by
    obtain rfl := List.isEmpty_iff.1 h
    have hlength := hpop []
    rw [List.length_nil] at hlength
    exact List.length_eq_zero_iff.1 (by omega)
  apply accounted_of_acts hks hat (acts_update hdoes hempty) (fun _ => trivial)
  intro items
  unfold Account.Balances
  dsimp only
  split
  · next hnone =>
    have hzero := (cardinality_eq_zero_iff items).2 hnone
    rw [hempty items hnone]
    exact .inl ⟨hzero, hzero, rfl⟩
  · next hsome =>
    have hpos : 0 < cardinality items :=
      Nat.pos_of_ne_zero (mt (cardinality_eq_zero_iff items).1 hsome)
    exact .inr ⟨hpos, (pop items).1, rfl, hpop items⟩

end Lists

section SortedSets
open SortedSet SortedSetCommand

variable {ks : Keyspace} {key : Bytes} {client : Client}

theorem wellFormed_of_held (hks : ks.Reachable) {deadline : Option Nat} {z : SortedSet}
    (hz : Slot.Fresh deadline z) (h : ks.live.get? key = Slot.ofCollection deadline z) :
    z.WellFormed := by
  cases hempty : Collection.isEmpty z with
  | true =>
    obtain ⟨rfl, -⟩ := hz hempty
    exact wellFormed_empty
  | false => exact (hks.built (h.trans (Slot.ofCollection_of_not_isEmpty hempty))).wellFormed

theorem accounted_listed (hks : ks.Reachable) {c : SortedSetCommand} (hat : key ∈ c.named)
    (select : SortedSet → List (Bytes × Binary64)) (hselect : ∀ z, (select z).Sublist z.toList)
    (hexec : c.exec ks = removedBy ks key (removeListed select)) :
    (Command.sortedSets c).Accounted key .removed ks client := by
  have haddresses : (Command.sortedSets c).Addresses key (typeName SortedSet) := ⟨hat, rfl⟩
  apply accounted hks.filled haddresses
  intro deadline z hz hheld
  have hwf := wellFormed_of_held hks hz hheld
  obtain ⟨hreply, hloses⟩ := removedBy_loses hwf hheld select (hselect z)
  -- No member is listed twice, so each that is counted is one element less.
  obtain ⟨left, hleft, hlive⟩ := hloses.live_eq
  rw [← hexec] at hreply hlive
  exact ⟨_, left, mapError_eq_ok_iff.2 hreply, hlive, _, rfl, hleft.size_eq hwf⟩

end SortedSets

theorem Accounts.accounted {c : Command} {key : Bytes} {account : Account}
    (h : Accounts c key account) {ks : Keyspace} (hks : ks.Reachable) (client : Client) :
    c.Accounted key account ks client := by
  have hfilled := hks.filled
  cases h with
  | llen =>
    exact accounted_told (α := List Bytes) hfilled ⟨List.mem_cons_self, rfl⟩ rfl (fun _ => rfl)
      fun _ _ => rfl
  | scard =>
    have hmembers (s : ByteSet) : (SetCommand.members (some s)).length = s.size :=
      List.length_map _
    exact accounted_told (α := ByteSet) hfilled ⟨List.mem_cons_self, rfl⟩ rfl hmembers
      fun _ _ => rfl
  | zcard =>
    exact accounted_told (α := SortedSet) hfilled ⟨List.mem_cons_self, rfl⟩ rfl (fun _ => rfl)
      fun _ _ => rfl
  | hlen =>
    exact accounted_told (α := Table Bytes) hfilled ⟨List.mem_cons_self, rfl⟩ rfl (fun _ => rfl)
      fun _ _ => rfl
  | sadd _ members =>
    exact accounted_added hfilled ⟨List.mem_cons_self, rfl⟩ SetCommand.addMember members
      (fun _ _ => rfl) fun s m => s.size_insert m ()
  | hset _ bindings =>
    exact accounted_added hfilled ⟨List.mem_cons_self, rfl⟩ HashCommand.setField bindings
      (fun _ _ => rfl) fun fields b => fields.size_insert b.1 b.2
  | zadd _ condition members =>
    exact accounted_added hfilled ⟨List.mem_cons_self, rfl⟩
      (SortedSetCommand.addMember condition false) members (fun _ _ => rfl)
      (SortedSetCommand.size_addMember condition)
  | srem _ members =>
    exact accounted_removed hfilled ⟨List.mem_cons_self, rfl⟩ SetCommand.removeMember
      members (fun _ _ => rfl) (fun _ m hs => SetCommand.removeMember_of_isEmpty hs m)
      fun s m => s.size_erase m
  | hdel _ fields =>
    exact accounted_removed hfilled ⟨List.mem_cons_self, rfl⟩ HashCommand.removeField
      fields (fun _ _ => rfl) (fun _ f hs => HashCommand.removeField_of_isEmpty hs f)
      fun fields f => fields.size_erase f
  | zrem _ members =>
    exact accounted_removed hfilled ⟨List.mem_cons_self, rfl⟩ SortedSet.remove
      members (fun _ _ => rfl) (fun _ m hz => SortedSet.remove_of_isEmpty hz m)
      fun z m => z.size_remove m
  | zremrangebyrank _ start stop =>
    exact accounted_listed hks List.mem_cons_self
      (·.rangeByRank start.toInt stop.toInt false)
      (·.rangeByRank_sublist start.toInt stop.toInt) rfl
  | zremrangebyscore _ min max =>
    exact accounted_listed hks List.mem_cons_self (·.rangeByScore min max)
      (·.rangeByScore_sublist min max) rfl
  | lrem _ count element =>
    have hidle (items : List Bytes) (h : isEmpty items = true) :
        ListCommand.removeOccurrences count.toInt element items = (0, items) := by
      obtain rfl := List.isEmpty_iff.1 h
      simp [ListCommand.removeOccurrences]
    exact accounted_removal hfilled ⟨List.mem_cons_self, rfl⟩ (fun _ _ => rfl) hidle
      (ListCommand.length_removeOccurrences count.toInt element)
  | lpush _ values =>
    have hpush (items : List Bytes) :
        (values.reverse ++ items).length = items.length + values.length := by
      rw [List.length_append, List.length_reverse, Nat.add_comm]
    exact accounted_pushed hfilled ⟨List.mem_cons_self, rfl⟩
      (fun items => values.reverse ++ items) (fun _ _ => rfl) hpush
  | rpush _ values =>
    exact accounted_pushed hfilled ⟨List.mem_cons_self, rfl⟩ (fun items => items ++ values)
      (fun _ _ => rfl) fun items => List.length_append
  | lpop _ n =>
    exact accounted_popped hfilled ⟨List.mem_cons_self, rfl⟩ n (fun _ _ => rfl)
      (ListCommand.length_popHead n)
  | rpop _ n =>
    exact accounted_popped hfilled ⟨List.mem_cons_self, rfl⟩ n (fun _ _ => rfl)
      (ListCommand.length_popTail n)

/-- Wherever a server gets to, counts in replies account for the elements under a key: what is
replied is how many are there, how many have been added, taken out or pushed, or all that have been
popped, with whatever arguments; a key is live exactly when there are elements under it. A command
that gives no account has failed, because what is there is of another type. Of the keys themselves
as many are gone as DEL replies, as the replies to DBSIZE before and after it show. -/
theorem counts_account_for_elements {ks : Keyspace} (hks : ks.Reachable) (client : Client) :
    (∀ key, 0 < ks.cardinality key ↔ (ks.live.get? key).isSome = true) ∧
    (∀ c key account, Accounts c key account → c.Accounted key account ks client) ∧
    ∀ keys,
      let del : Command := .keys (.del keys)
      let dbsize : Command := .server .dbsize
      let after := (del.exec ks client).2.1
      ∃ n, (del.exec ks client).1 = .ok (.count n) ∧ ks.size = after.size + n ∧
        (dbsize.exec ks client).1 = .ok (.count (after.size + n)) ∧
        (dbsize.exec after client).1 = .ok (.count after.size) := by
  refine ⟨fun key => ?_, fun c key account h => h.accounted hks client, fun keys => ?_⟩
  · exact (hks.filled.get?_live key).cardinality_pos_iff
  · intro del dbsize after
    have hsize := ks.size_forEach_remove keys
    have hbefore : (dbsize.exec ks client).1 = .ok (.count ks.size) := rfl
    refine ⟨_, rfl, hsize, ?_, rfl⟩
    rw [hbefore, hsize]
    rfl

end

/-- Two of the three elements of a list go as they are removed, and all three as five are popped; an
addition to a set fails there and has nothing to count; and the list can be deleted once only. -/
theorem counts_account_for_three_elements :
    let client : Client := { id := 1 }
    let frame (words : List String) : Frame := .bulkArray (words.map Bytes.ofString)
    let push : Command := .lists (.rpush [108] [[120], [121], [120]])
    let ks := (push.exec {} client).2.1
    let remove : Command := .lists (.lrem [108] 0 [120])
    let pop : Command := .lists (.lpop [108] (some 5))
    let add : Command := .sets (.sadd [108] [[97], [97]])
    let del : Command := .keys (.del [[108], [109], [108]])
    Command.ofFrame (frame ["RPUSH", "l", "x", "y", "x"]) = .ok push ∧ ks.Reachable ∧
      ks.cardinality [108] = 3 ∧
      Accounts remove [108] .removed ∧ remove.Accounted [108] .removed ks client ∧
      (remove.exec ks client).1 = .ok (.count 2) ∧
      (remove.exec ks client).2.1.cardinality [108] = 1 ∧
      Accounts pop [108] .popped ∧ pop.Accounted [108] .popped ks client ∧
      (pop.exec ks client).1 = .ok (.bulkArray [[120], [121], [120]]) ∧
      Accounts add [108] .added ∧ add.Accounted [108] .added ks client ∧
      (add.exec ks client).1 = .error (.store .wrongType) ∧
      (del.exec ks client).1 = .ok (.count 1) ∧ ks.size = (del.exec ks client).2.1.size + 1 := by
  intro client frame push ks remove pop add del
  have hread : Command.ofFrame (frame ["RPUSH", "l", "x", "y", "x"]) = .ok push := by
    decide +kernel
  have hks : ks.Reachable := Keyspace.Reachable.start.exec hread client
  have hremove : Accounts remove [108] .removed := .lrem [108] 0 [120]
  have hpop : Accounts pop [108] .popped := .lpop [108] 5
  have hadd : Accounts add [108] .added := .sadd [108] [[97], [97]]
  obtain ⟨-, haccounted, -⟩ := counts_account_for_elements hks client
  exact ⟨hread, hks, by decide +kernel, hremove, haccounted _ _ _ hremove, by decide +kernel,
    by decide +kernel, hpop, haccounted _ _ _ hpop, by decide +kernel, hadd,
    haccounted _ _ _ hadd, by decide +kernel, by decide +kernel, by decide +kernel⟩

end Command
end RespStore
