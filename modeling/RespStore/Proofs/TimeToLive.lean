import Mathlib.Algebra.Group.Nat.Defs
import RespStore.Proofs.Expiry
import RespStore.Proofs.Request.Written
import RespStore.Proofs.Turns

/-! A time to live, from the request that gives it until it is over. -/
namespace RespStore
open Keyspace

namespace SetOption

def seconds? : SetOption → Option Int64
  | ex seconds => some seconds
  | _ => none

end SetOption

namespace TimeToLive

open SetOption in
/-- Requests that give a key a time to live where they find a slot under it: the milliseconds it is
worth, and the seconds that it is stated in if it is. -/
inductive Grants (key : Bytes) (slot : Slot) : Frame → Nat → Option Int64 → Prop
  | expire {name k amount : Frame} {n : Int64} (hname : Command.readName name = .ok "expire")
      (hkey : k.bytes = .ok key) (hamount : amount.States n) (hpos : 1 ≤ n.toInt)
      (hfound : slot.isSome = true) :
      Grants key slot (.array [name, k, amount]) (min (1000 * n.toInt) (2 ^ 63 - 1)).toNat (some n)
  | pexpire {name k amount : Frame} {n : Int64} (hname : Command.readName name = .ok "pexpire")
      (hkey : k.bytes = .ok key) (hamount : amount.States n) (hpos : 1 ≤ n.toInt)
      (hfound : slot.isSome = true) :
      Grants key slot (.array [name, k, amount]) n.toInt.toNat none
  | setex {name k amount v : Frame} {value : Bytes} {n : Int64}
      (hname : Command.readName name = .ok "setex") (hkey : k.bytes = .ok key)
      (hamount : amount.States n) (hvalue : v.bytes = .ok value) (hpos : 1 ≤ n.toInt)
      (hmax : 1000 * n.toInt ≤ 2 ^ 63 - 1) :
      Grants key slot (.array [name, k, amount, v]) (1000 * n.toInt).toNat (some n)
  | psetex {name k amount v : Frame} {value : Bytes} {n : Int64}
      (hname : Command.readName name = .ok "psetex") (hkey : k.bytes = .ok key)
      (hamount : amount.States n) (hvalue : v.bytes = .ok value) (hpos : 1 ≤ n.toInt) :
      Grants key slot (.array [name, k, amount, v]) n.toInt.toNat none
  | set {name k v : Frame} {value : Bytes} {groups : List Group} {option : SetOption} {millis : Nat}
      (hname : Command.readName name = .ok "set") (hkey : k.bytes = .ok key)
      (hvalue : v.bytes = .ok value) (hcompatible : Compatible (groups.map (·.option)))
      (hoption : option ∈ groups.map (·.option)) (hexpiry : option.expiry? = some (.ttl millis))
      (hpermits : (SetOptions.ofList (groups.map (·.option))).Permits slot)
      (hold : .get ∈ groups.map (·.option) → ∃ found, Slot.string? slot = .ok found) :
      Grants key slot (.array (name :: k :: v :: groups.flatMap (·.frames))) millis option.seconds?

/-- What a time to live is worth in milliseconds, which is a number of 64 bits, and no more than the
seconds that it is stated in. -/
structure Worth (lifetime : Nat) (seconds : Option Int64) : Prop where
  pos : 0 < lifetime
  le : (lifetime : Int) ≤ 2 ^ 63 - 1
  le_seconds : ∀ s ∈ seconds, (lifetime : Int) ≤ 1000 * s.toInt

end TimeToLive

namespace SetOption

theorem Written.worth {option : SetOption} {frames : List Frame} (h : option.Written frames)
    {millis : Nat} (hexpiry : option.expiry? = some (.ttl millis)) :
    TimeToLive.Worth millis option.seconds? := by
  cases h with
  | @ex word amount n hword hamount hpos hmax =>
    cases hexpiry
    refine ⟨by omega, by omega, fun s hs => ?_⟩
    cases hs
    omega
  | @px word amount n hword hamount hpos =>
    cases hexpiry
    have hmax := n.toInt_lt
    exact ⟨by omega, by omega, nofun⟩
  | _ => cases hexpiry

/-- The expiry of an option among others that go with it is the one that counts. -/
theorem Compatible.expiry_eq {options : List SetOption} (h : Compatible options)
    {option : SetOption} (hmem : option ∈ options) {e : SetExpiry}
    (hexpiry : option.expiry? = some e) : (SetOptions.ofList options).expiry = some e := by
  have hstated : e ∈ options.filterMap expiry? := List.mem_filterMap.2 ⟨option, hmem, hexpiry⟩
  have hone := h.expiry
  unfold SetOptions.ofList
  generalize options.filterMap expiry? = stated at hstated hone ⊢
  rcases stated with _ | ⟨first, _ | ⟨second, rest⟩⟩
  · cases hstated
  · rw [List.mem_singleton.1 hstated]
    rfl
  · simp only [List.length_cons] at hone
    omega

end SetOption

namespace TimeToLive

namespace Grants

variable {key : Bytes} {slot : Slot} {ks : Keyspace} {request : Frame} {lifetime : Nat}
  {seconds : Option Int64}

theorem worth (h : Grants key slot request lifetime seconds) : Worth lifetime seconds := by
  cases h with
  | @expire name k amount n hname hkey hamount hpos hfound =>
    refine ⟨by omega, by omega, fun s hs => ?_⟩
    cases hs
    omega
  | @pexpire name k amount n hname hkey hamount hpos hfound =>
    have hmax := n.toInt_lt
    exact ⟨by omega, by omega, nofun⟩
  | @setex name k amount v value n hname hkey hamount hvalue hpos hmax =>
    refine ⟨by omega, by omega, fun s hs => ?_⟩
    cases hs
    omega
  | @psetex name k amount v value n hname hkey hamount hvalue hpos =>
    have hmax := n.toInt_lt
    exact ⟨by omega, by omega, nofun⟩
  | @set name k v value groups option millis hname hkey hvalue hcompatible hoption hexpiry =>
    obtain ⟨g, -, rfl⟩ := List.mem_map.1 hoption
    exact g.written.worth hexpiry

theorem deadline_expireAfter (hfound : (ks.live.get? key).isSome = true) {millis : Int}
    (hpos : 0 < millis) :
    ((KeyCommand.expireAfter ks key millis).2.live.get? key).map (·.deadline) =
      some (deadlineAfter ks.now millis.toNat) := by
  have hnot : ¬ millis ≤ 0 := by omega
  obtain ⟨e, he⟩ := Option.isSome_iff_exists.1 hfound
  rw [(KeyCommand.expireAfter_turns key millis).get?_live, he]
  simp only [KeyCommand.expireSlot, hnot, if_false]
  rfl

theorem deadline_setWith {value : Bytes} {o : SetOptions} {millis : Nat} (ho : o.WellTimed)
    (hexpiry : o.expiry = some (.ttl millis)) (hpermits : o.Permits (ks.live.get? key))
    (hold : o.get = true → ∃ found, Slot.string? (ks.live.get? key) = .ok found) :
    ((StringCommand.setWith ks key value o).2.live.get? key).map (·.deadline) =
      some (deadlineAfter ks.now millis) := by
  obtain ⟨old, hasked⟩ : ∃ old, StringCommand.askedFor o (ks.live.get? key) = .ok old := by
    unfold StringCommand.askedFor
    split
    · next hget => exact hold hget
    · exact ⟨none, rfl⟩
  have hreply := (StringCommand.setWith_turns ho key value).result ks
  rw [StringCommand.setSlot, hasked] at hreply
  rw [StringCommand.get?_live_setWith ho hpermits hreply, Option.map_some, SetOptions.deadlineOver,
    hexpiry]

/-- The request is read, and the command leaves the key under the deadline. -/
theorem exists_command [Glob.Matcher] (h : Grants key (ks.live.get? key) request lifetime seconds) :
    ∃ c, Command.ofFrame request = .ok c ∧ ∀ client,
      ((c.exec ks client).2.1.live.get? key).map (·.deadline) =
        some (deadlineAfter ks.now lifetime) := by
  cases h with
  | @expire name k amount n hname hkey hamount hpos hfound =>
    refine ⟨_, Command.ofFrame_array_numbered KeyCommand.expire hname rfl hkey hamount,
      fun client => ?_⟩
    have hmillis : KeyCommand.secondsToMillis n = min (1000 * n.toInt) (2 ^ 63 - 1) := by
      rw [KeyCommand.secondsToMillis_eq]
      omega
    rw [← hmillis]
    exact deadline_expireAfter hfound (by omega)
  | @pexpire name k amount n hname hkey hamount hpos hfound =>
    exact ⟨_, Command.ofFrame_array_numbered KeyCommand.pexpire hname rfl hkey hamount,
      fun client => deadline_expireAfter hfound hpos⟩
  | @setex name k amount v value n hname hkey hamount hvalue hpos hmax =>
    have httl : Reader.ttlOf "setex" 1000 n = .ok (1000 * n.toInt).toNat :=
      Reader.ttlOf_eq_ok_iff.2 (by omega)
    refine ⟨_, Command.ofFrame_array_timed .setex hname rfl hkey hamount hvalue httl,
      fun client => ?_⟩
    exact congrArg (Option.map (·.deadline))
      (ks.get?_live_setWithTtl key (.string value) (by omega : 0 < (1000 * n.toInt).toNat))
  | @psetex name k amount v value n hname hkey hamount hvalue hpos =>
    have hmax := n.toInt_lt
    have httl : Reader.ttlOf "psetex" 1 n = .ok n.toInt.toNat :=
      Reader.ttlOf_eq_ok_iff.2 (by omega)
    refine ⟨_, Command.ofFrame_array_timed .psetex hname rfl hkey hamount hvalue httl,
      fun client => ?_⟩
    exact congrArg (Option.map (·.deadline))
      (ks.get?_live_setWithTtl key (.string value) (by omega : 0 < n.toInt.toNat))
  | @set name k v value groups option _ hname hkey hvalue hcompatible hoption hexpiry hpermits
      hold =>
    have hgathers := SetOptions.Gathers.empty_iff.2 ⟨hcompatible, rfl⟩
    have hread := (Command.ofFrame_set_eq_ok_iff hname).2
      ⟨key, value, _, hkey, hvalue, (SetOptions.read_groups groups).2 hgathers, rfl⟩
    have hstated := hcompatible.expiry_eq hoption hexpiry
    exact ⟨_, hread, fun client => deadline_setWith (Command.wellTimed_of_ofFrame hread) hstated
      hpermits fun hget => hold (List.contains_iff_mem.1 hget)⟩

end Grants

/-- Commands, whoever sends them, and the time that passes, through which the deadline of a key
stays as it is. -/
inductive Leaves [Glob.Matcher] (key : Bytes) (start : Keyspace) : Nat → Keyspace → Prop
  | start : Leaves key start 0 start
  | exec {elapsed : Nat} {ks : Keyspace} (h : Leaves key start elapsed ks) (c : Command)
      (client : Client) (hkept : ((c.exec ks client).2.1.live.get? key).map (·.deadline) =
        (ks.live.get? key).map (·.deadline)) :
      Leaves key start elapsed (c.exec ks client).2.1
  | advance {elapsed : Nat} {ks : Keyspace} (h : Leaves key start elapsed ks) (millis : Nat) :
      Leaves key start (elapsed + millis) (ks.advance millis)
  | mapStats {elapsed : Nat} {ks : Keyspace} (h : Leaves key start elapsed ks) (f : Stats → Stats) :
      Leaves key start elapsed (ks.mapStats f)

/-- A key under a deadline that was given some time ago, and nothing from the deadline on. -/
structure Counts (key : Bytes) (given lifetime elapsed : Nat) (ks : Keyspace) : Prop where
  now : ks.now = given + elapsed
  deadline : (ks.live.get? key).map (·.deadline) =
    if elapsed < lifetime then some (some (given + lifetime)) else none

namespace Counts

variable {key : Bytes} {given lifetime elapsed : Nat} {ks : Keyspace}

theorem exec [Glob.Matcher] (h : Counts key given lifetime elapsed ks) (c : Command)
    (client : Client) (hkept : ((c.exec ks client).2.1.live.get? key).map (·.deadline) =
      (ks.live.get? key).map (·.deadline)) :
    Counts key given lifetime elapsed (c.exec ks client).2.1 :=
  ⟨(c.now_exec ks client).trans h.now, hkept.trans h.deadline⟩

theorem live_or_over (h : Counts key given lifetime elapsed ks) :
    (elapsed < lifetime ∧ ∃ value, ks.live.get? key = some ⟨value, some (given + lifetime)⟩) ∨
      lifetime ≤ elapsed ∧ ks.live.get? key = none := by
  have hdeadline := h.deadline
  by_cases hleft : elapsed < lifetime
  · rw [if_pos hleft] at hdeadline
    obtain ⟨⟨value, deadline⟩, hslot, rfl⟩ := Option.map_eq_some_iff.1 hdeadline
    exact .inl ⟨hleft, value, hslot⟩
  · rw [if_neg hleft] at hdeadline
    exact .inr ⟨Nat.not_lt.1 hleft, Option.map_eq_none_iff.1 hdeadline⟩

theorem advance (h : Counts key given lifetime elapsed ks) (millis : Nat) :
    Counts key given lifetime (elapsed + millis) (ks.advance millis) := by
  refine ⟨?_, ?_⟩
  · rw [Keyspace.advance, h.now, Nat.add_assoc]
  rw [get?_live_advance, h.now]
  rcases h.live_or_over with ⟨-, value, hslot⟩ | ⟨hover, hslot⟩
  · rw [hslot, Option.filter_some]
    by_cases hleft : elapsed + millis < lifetime
    · have hexpired : Entry.isExpired (given + elapsed + millis)
          ⟨value, some (given + lifetime)⟩ = false := decide_eq_false (by omega)
      rw [hexpired, if_pos hleft]
      rfl
    · have hexpired : Entry.isExpired (given + elapsed + millis)
          ⟨value, some (given + lifetime)⟩ = true := decide_eq_true (by omega)
      rw [hexpired, if_neg hleft]
      rfl
  · have hover' : ¬ elapsed + millis < lifetime := by omega
    rw [hslot, if_neg hover']
    rfl

theorem isSome_get?_live (h : Counts key given lifetime elapsed ks) (hlt : elapsed < lifetime) :
    (ks.live.get? key).isSome = true := by
  rcases h.live_or_over with ⟨-, value, hslot⟩ | ⟨hover, -⟩
  · rw [hslot, Option.isSome_some]
  · exact absurd hlt (Nat.not_lt.2 hover)

theorem get?_live_eq_none (h : Counts key given lifetime elapsed ks) (hover : lifetime ≤ elapsed) :
    ks.live.get? key = none := by
  rcases h.live_or_over with ⟨hlt, -⟩ | ⟨-, hslot⟩
  · exact absurd hlt (Nat.not_lt.2 hover)
  · exact hslot

/-- By induction on what happens, of which only time makes a difference. -/
theorem of_leaves [Glob.Matcher] {start : Keyspace} (hstart : Counts key given lifetime 0 start)
    (h : Leaves key start elapsed ks) : Counts key given lifetime elapsed ks := by
  induction h with
  | start => exact hstart
  | exec _ c client hkept ih => exact ih.exec c client hkept
  | advance _ millis ih => exact ih.advance millis
  | mapStats _ f ih => exact ⟨ih.now, ih.deadline⟩

theorem ttl (h : Counts key given lifetime elapsed ks) : (ks.ttl key).1 =
    if elapsed < lifetime then .remaining (lifetime - elapsed) else .absent := by
  have hread : (ks.ttl key).1 = Slot.ttl ks.now (ks.live.get? key) := ks.access_fst key _
  rw [hread, h.now]
  rcases h.live_or_over with ⟨hleft, value, hslot⟩ | ⟨hover, hslot⟩
  · rw [hslot, if_pos hleft, Slot.ttl, Nat.add_sub_add_left]
  · rw [hslot, if_neg (Nat.not_lt.2 hover), Slot.ttl]

end Counts

structure Reports [Glob.Matcher] (ks : Keyspace) (key : Bytes) (ttl pttl : Int64) : Prop where
  ttl : ∀ client, ((Command.keys (.ttl key)).exec ks client).1 = .ok (.integer ttl)
  pttl : ∀ client, ((Command.keys (.pttl key)).exec ks client).1 = .ok (.integer pttl)

/-- No access finds anything under a key, and one that would move its deadline leaves it so.
Commands do as they would if nothing were kept there. -/
structure Absent [Glob.Matcher] (ks : Keyspace) (key : Bytes) : Prop where
  access : ∀ {α : Type} (f : Slot → α × Slot), (ks.access key f).1 = (f none).1
  existing : ∀ client, ((Command.keys (.existing [key])).exec ks client).1 = .ok (.integer 0)
  typeOf : ∀ client, ((Command.keys (.typeOf key)).exec ks client).1 = .ok (.simple "none")
  redates : ∀ c : KeyCommand, c.redates = true → c.named = [key] → ∀ client,
    ((Command.keys c).exec ks client).1 = .ok (.integer 0) ∧
      ((Command.keys c).exec ks client).2.1.live = ks.live
  unseen : ∀ c : Command, c.WellTimed → (∀ names, c ≠ .server (.info names)) → ∀ client,
    let erased : Keyspace := { ks with entries := ks.entries.erase key }
    (c.exec ks client).1 = (c.exec erased client).1 ∧
      (c.exec ks client).2.1.live = (c.exec erased client).2.1.live

namespace Absent

variable {key : Bytes} {ks : Keyspace}

theorem redates_turns [Glob.Matcher] {c : KeyCommand} (hc : c.redates = true)
    (hnamed : c.named = [key]) :
    ∃ g, Turns key (fun ks => c.exec ks) g ∧ ∀ now, g now none = (.integer 0, none) := by
  have hexpire (millis : Int) : ∃ g, Turns key
      (fun ks => (Frame.flag (KeyCommand.expireAfter ks key millis).1,
        (KeyCommand.expireAfter ks key millis).2)) g ∧ ∀ now, g now none = (.integer 0, none) := by
    refine ⟨_, (KeyCommand.expireAfter_turns key millis).map Frame.flag, fun now => ?_⟩
    rw [KeyCommand.expireSlot_none]
    rfl
  cases c with
  | expire k n =>
    cases hnamed
    exact hexpire (KeyCommand.secondsToMillis n)
  | pexpire k n =>
    cases hnamed
    exact hexpire n.toInt
  | persist k =>
    cases hnamed
    exact ⟨_, (KeyCommand.persist_turns key).map Frame.flag, fun now => rfl⟩
  | _ => cases hc

theorem live_erase (h : ks.live.get? key = none) :
    Keyspace.live { ks with entries := ks.entries.erase key } = ks.live := by
  have hset : Keyspace.live { ks with entries := ks.entries.erase key } = ks.live.set key none :=
    live_of_entries_set rfl rfl Slot.liveAt_none
  rw [hset, Table.set_of_get?_eq h]

theorem of_get?_live_eq_none [Glob.Matcher] (h : ks.live.get? key = none) : Absent ks key where
  access f := by rw [ks.access_fst key f, h]
  existing client := by
    have hfound : (ks.exists? key).1 = false := by
      rw [Keyspace.exists?, Keyspace.read, ks.access_fst, h]
      rfl
    show Except.ok (Frame.count ([(ks.exists? key).1].countP id)) = _
    rw [hfound]
    rfl
  typeOf client := by
    have hfound : (ks.get key).1 = none := by
      rw [Keyspace.get, Keyspace.read, ks.access_fst, h]
      rfl
    show Except.ok (Frame.simple ((ks.get key).1.elim "none" Value.typeName)) = _
    rw [hfound]
    rfl
  redates c hc hnamed client := by
    obtain ⟨g, hturns, hnone⟩ := redates_turns hc hnamed
    have hreply := hturns.result ks
    have hlive := hturns.live ks
    rw [h, hnone] at hreply hlive
    exact ⟨congrArg Except.ok hreply, hlive.trans (Table.set_of_get?_eq h)⟩
  unseen c hc hinfo client := by
    intro erased
    have hshows : Shows ks ks.purge := ⟨rfl, rfl, ks.stats.expiredKeys, rfl⟩
    have hshows' : Shows erased ks.purge := ⟨rfl, (live_erase h).symm, ks.stats.expiredKeys, rfl⟩
    obtain ⟨hreply, hleft, -⟩ := Command.exec_shows hshows client hc hinfo
    obtain ⟨hreply', hleft', -⟩ := Command.exec_shows hshows' client hc hinfo
    exact ⟨hreply.symm.trans hreply', hleft.live.symm.trans hleft'.live⟩

end Absent

/-- The seconds that are left, to the nearest, and -2 once none of the time is left. -/
def secondsLeft (lifetime elapsed : Nat) : Int :=
  if elapsed < lifetime then (lifetime - elapsed + 500) / 1000 else -2

/-- The milliseconds that are left, and -2 once none is. -/
def millisLeft (lifetime elapsed : Nat) : Int :=
  if elapsed < lifetime then lifetime - elapsed else -2

theorem secondsLeft_anti {lifetime elapsed later : Nat} (h : elapsed ≤ later) :
    secondsLeft lifetime later ≤ secondsLeft lifetime elapsed := by
  unfold secondsLeft
  split <;> split <;> omega

theorem millisLeft_anti {lifetime elapsed later : Nat} (h : elapsed ≤ later) :
    millisLeft lifetime later ≤ millisLeft lifetime elapsed := by
  unfold millisLeft
  split <;> split <;> omega

theorem Reports.unique [Glob.Matcher] {ks : Keyspace} {key : Bytes} {ttl pttl ttl' pttl' : Int64}
    (h : Reports ks key ttl pttl) (h' : Reports ks key ttl' pttl') : ttl = ttl' ∧ pttl = pttl' := by
  have httl := (h.ttl { id := 0 }).symm.trans (h'.ttl { id := 0 })
  have hpttl := (h.pttl { id := 0 }).symm.trans (h'.pttl { id := 0 })
  cases httl
  cases hpttl
  exact ⟨rfl, rfl⟩

/-- No reply is too large a number to be exact. -/
theorem Counts.exists_reports [Glob.Matcher] {key : Bytes} {given lifetime elapsed : Nat}
    {ks : Keyspace} (h : Counts key given lifetime elapsed ks)
    (hmax : (lifetime : Int) ≤ 2 ^ 63 - 1) :
    ∃ ttl pttl : Int64, Reports ks key ttl pttl ∧ ttl.toInt = secondsLeft lifetime elapsed ∧
      pttl.toInt = millisLeft lifetime elapsed := by
  have hleft := h.ttl
  have httl (client : Client) : ((Command.keys (.ttl key)).exec ks client).1 =
    .ok (KeyCommand.ttlReply (fun millis => (millis + 500) / 1000) (ks.ttl key).1) := rfl
  have hpttl (client : Client) : ((Command.keys (.pttl key)).exec ks client).1 =
    .ok (KeyCommand.ttlReply id (ks.ttl key).1) := rfl
  unfold secondsLeft millisLeft
  by_cases hlt : elapsed < lifetime
  · rw [if_pos hlt] at hleft
    simp only [hleft] at httl hpttl
    refine ⟨.ofNat ((lifetime - elapsed + 500) / 1000), .ofNat (lifetime - elapsed),
      ⟨httl, hpttl⟩, ?_, ?_⟩
    · rw [if_pos hlt, Int64.toInt_ofNat_of_lt (by omega)]
      omega
    · rw [if_pos hlt, Int64.toInt_ofNat_of_lt (by omega)]
      omega
  · rw [if_neg hlt] at hleft
    simp only [hleft] at httl hpttl
    exact ⟨-2, -2, ⟨httl, hpttl⟩, by rw [if_neg hlt]; rfl, by rw [if_neg hlt]; rfl⟩

theorem exists_secondsToMillis (n : Int64) :
    ∃ millis : Int64, millis.toInt = KeyCommand.secondsToMillis n := by
  rw [KeyCommand.secondsToMillis_eq]
  exact Decimal.exists_int64 (by omega) (by omega)

/-- After a key is given a time to live, what is left of it goes down with the clock through all
commands that leave the deadline as it is. While some is left, the key is live, and the replies are
the milliseconds left and these to the nearest second. Then the key is gone. -/
theorem counts_down_until_gone [Glob.Matcher] {key : Bytes} {ks : Keyspace} {request : Frame}
    {lifetime : Nat} {seconds : Option Int64}
    (h : Grants key (ks.live.get? key) request lifetime seconds)
    (hnow : ks.now + 2 ^ 63 ≤ horizon) :
    (∃ c, Command.ofFrame request = .ok c ∧ ∀ (client : Client) (elapsed : Nat) (left : Keyspace),
      Leaves key (c.exec ks client).2.1 elapsed left → ∃ ttl pttl : Int64,
        Reports left key ttl pttl ∧
        (elapsed < lifetime → (left.live.get? key).isSome = true ∧
          pttl.toInt = lifetime - elapsed ∧ ttl.toInt = (lifetime - elapsed + 500) / 1000 ∧
          (1000 * ttl.toInt - pttl.toInt).natAbs ≤ 500 ∧ ∀ s ∈ seconds, ttl.toInt ≤ s.toInt) ∧
        (lifetime ≤ elapsed → ttl.toInt = -2 ∧ pttl.toInt = -2 ∧ Absent left key) ∧
        ∀ later left', Leaves key (c.exec ks client).2.1 later left' → elapsed ≤ later →
          ∀ ttl' pttl', Reports left' key ttl' pttl' →
            ttl'.toInt ≤ ttl.toInt ∧ pttl'.toInt ≤ pttl.toInt) ∧
    ∀ n : Int64, deadlineAfter ks.now n.toInt.toNat = some (ks.now + n.toInt.toNat) ∧
      ∃ millis : Int64, millis.toInt = KeyCommand.secondsToMillis n := by
  obtain ⟨hpos, hmax, hseconds⟩ := h.worth
  have hdeadline {ttl : Nat} (httl : (ttl : Int) ≤ 2 ^ 63 - 1) :
      deadlineAfter ks.now ttl = some (ks.now + ttl) := if_pos (by omega)
  constructor
  · obtain ⟨c, hread, hgiven⟩ := h.exists_command
    refine ⟨c, hread, fun client elapsed left hleaves => ?_⟩
    have hstart : Counts key ks.now lifetime 0 (c.exec ks client).2.1 :=
      ⟨c.now_exec ks client, by rw [hgiven, hdeadline hmax, if_pos hpos]⟩
    have hcounts := Counts.of_leaves hstart hleaves
    obtain ⟨ttl, pttl, hreports, httl, hpttl⟩ := hcounts.exists_reports hmax
    refine ⟨ttl, pttl, hreports, fun hlt => ?_, fun hover => ?_, ?_⟩
    · rw [secondsLeft, if_pos hlt] at httl
      rw [millisLeft, if_pos hlt] at hpttl
      have hnear : (1000 * ttl.toInt - pttl.toInt).natAbs ≤ 500 := by omega
      refine ⟨hcounts.isSome_get?_live hlt, hpttl, httl, hnear, fun s hs => ?_⟩
      have hasked := hseconds s hs
      omega
    · rw [secondsLeft, if_neg (Nat.not_lt.2 hover)] at httl
      rw [millisLeft, if_neg (Nat.not_lt.2 hover)] at hpttl
      have habsent : Absent left key := .of_get?_live_eq_none (hcounts.get?_live_eq_none hover)
      exact ⟨httl, hpttl, habsent⟩
    · intro later left' hleaves' hle ttl' pttl' hreports'
      obtain ⟨ttl'', pttl'', hreports'', httl'', hpttl''⟩ :=
        (Counts.of_leaves hstart hleaves').exists_reports hmax
      obtain ⟨rfl, rfl⟩ := hreports'.unique hreports''
      rw [httl, hpttl, httl'', hpttl'']
      exact ⟨secondsLeft_anti hle, millisLeft_anti hle⟩
  · intro n
    have hn := n.toInt_lt
    exact ⟨hdeadline (by omega), exists_secondsToMillis n⟩

/-- The longest time that EXPIRE can ask for, with its last millisecond and the next one. In between
an element is added to the list that is to expire. -/
theorem longest_counts_down_until_gone :
    let key : Bytes := [107]
    let ks : Keyspace := { entries := Table.empty.insert key ⟨.list [[120]], some 20⟩, now := 10 }
    let request : Frame := .request "EXPIRE" [key, Decimal.bytes (2 ^ 63 - 1)]
    let expire : Command := .keys (.expire key Int64.maxValue)
    let push : Command := .lists (.rpush key [[121]])
    let last : Keyspace := (push.exec ((expire.exec ks { id := 1 }).2.1.advance (2 ^ 63 - 2))
      { id := 2 }).2.1
    Grants key (ks.live.get? key) request (2 ^ 63 - 1) (some Int64.maxValue) ∧
      ks.now + 2 ^ 63 ≤ horizon ∧ Command.ofFrame request = .ok expire ∧
      (∃ ttl pttl : Int64, Reports last key ttl pttl ∧ ttl.toInt = 0 ∧ pttl.toInt = 1) ∧
      Absent (last.advance 1) key := by
  intro key ks request expire push last
  have hstates := Frame.states_bytes Int64.maxValue
  have hgrants : Grants key (ks.live.get? key) request (2 ^ 63 - 1) (some Int64.maxValue) :=
    .expire (n := Int64.maxValue) (Command.readName_bulk rfl) rfl hstates (by decide)
      (by decide +kernel)
  have hnow : ks.now + 2 ^ 63 ≤ horizon := by decide
  have hread : Command.ofFrame request = .ok expire :=
    Command.ofFrame_numbered key KeyCommand.expire rfl rfl Int64.maxValue
  have hlast : Leaves key (expire.exec ks { id := 1 }).2.1 (0 + (2 ^ 63 - 2)) last :=
    .exec (.advance .start _) push { id := 2 } (by decide +kernel)
  obtain ⟨⟨c, hc, hruns⟩, -⟩ := counts_down_until_gone hgrants hnow
  cases hread.symm.trans hc
  obtain ⟨ttl, pttl, hreports, hlive, -⟩ := hruns { id := 1 } _ _ hlast
  obtain ⟨-, hpttl, httl, -⟩ := hlive (by decide)
  obtain ⟨_, _, -, -, hover, -⟩ := hruns { id := 1 } _ _ (hlast.advance 1)
  obtain ⟨-, -, habsent⟩ := hover (by decide)
  exact ⟨hgrants, hnow, hread, ⟨ttl, pttl, hreports, httl, hpttl⟩, habsent⟩

end TimeToLive
end RespStore
