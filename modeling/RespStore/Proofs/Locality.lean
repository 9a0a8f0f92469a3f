import RespStore.Glob.Search
import RespStore.Proofs.Access.Commands
import RespStore.Proofs.Keyspace
import RespStore.Proofs.Session

/-! Commands are local to the keys they name, so that commands that name different keys commute. -/
namespace RespStore

namespace Stats

/-- Counters that have each gone up by as much as another set of counters shows. -/
def plus (st d : Stats) : Stats where
  connectedClients := st.connectedClients + d.connectedClients
  connectionsReceived := st.connectionsReceived + d.connectionsReceived
  commandsProcessed := st.commandsProcessed + d.commandsProcessed
  expiredKeys := st.expiredKeys + d.expiredKeys

theorem plus_assoc (st d d' : Stats) : (st.plus d).plus d' = st.plus (d.plus d') := by
  simp only [plus, Nat.add_assoc]

theorem plus_right_comm (st d d' : Stats) : (st.plus d).plus d' = (st.plus d').plus d := by
  simp only [plus, Nat.add_right_comm]

end Stats

namespace Keyspace

variable {α β : Type} {ks ks' ks'' : Keyspace} {keys : List Bytes} {key : Bytes}

/-- At one instant, two keyspaces hold the same under some keys, what has expired included. -/
structure Agree (on : Bytes → Prop) (ks ks' : Keyspace) : Prop where
  now : ks'.now = ks.now
  entries : ∀ key, on key → ks'.entries.get? key = ks.entries.get? key

namespace Agree

variable {on wide : Bytes → Prop}

theorem refl (on : Bytes → Prop) (ks : Keyspace) : Agree on ks ks := ⟨rfl, fun _ _ => rfl⟩

theorem trans (h : Agree on ks ks') (h' : Agree on ks' ks'') : Agree on ks ks'' where
  now := h'.now.trans h.now
  entries key hkey := (h'.entries key hkey).trans (h.entries key hkey)

theorem mono (h : Agree wide ks ks') (hon : ∀ key, on key → wide key) : Agree on ks ks' where
  now := h.now
  entries key hkey := h.entries key (hon key hkey)

theorem get?_live (h : Agree on ks ks') (hkey : on key) :
    ks'.live.get? key = ks.live.get? key := by
  rw [Keyspace.get?_live, Keyspace.get?_live, h.entries key hkey, h.now]

theorem of_entries_set {left left' : Keyspace} {slot : Slot} (h : Agree on ks ks')
    (hleft : left.now = ks.now ∧ left.entries = ks.entries.set key slot)
    (hleft' : left'.now = ks'.now ∧ left'.entries = ks'.entries.set key slot) :
    Agree on left left' where
  now := by rw [hleft.1, hleft'.1, h.now]
  entries k hk := by
    rw [hleft.2, hleft'.2, Table.get?_set, Table.get?_set, h.entries k hk]

end Agree

theorem entries_put (ks : Keyspace) (key : Bytes) (e : Entry) :
    (ks.put key e).entries = ks.entries.set key (some e) := rfl

theorem agree_of_entries_set {slot : Slot} (hkey : key ∈ keys) (hnow : ks'.now = ks.now)
    (hentries : ks'.entries = ks.entries.set key slot) : Agree (· ∉ keys) ks ks' where
  now := hnow
  entries k hk := by
    have hne : k ≠ key := fun heq => hk (heq ▸ hkey)
    rw [hentries, Table.get?_set, if_neg hne]

theorem stats_access_eq (ks : Keyspace) (key : Bytes) (f : Slot → α × Slot) :
    (ks.access key f).2.stats = ks.stats.plus
      { expiredKeys := if (ks.entries.get? key).any (·.isExpired ks.now) then 1 else 0 } := by
  unfold access evict
  split <;> rfl

/-- An operation that has to do with some keys only. What it finds elsewhere has no say in its result,
in what it leaves under the keys and in how far the counters go up, and stays as it is. -/
structure LocalTo (keys : List Bytes) (op : Keyspace → α × Keyspace) : Prop where
  result : ∀ {ks ks' : Keyspace}, Agree (· ∈ keys) ks ks' → (op ks').1 = (op ks).1
  on : ∀ {ks ks' : Keyspace}, Agree (· ∈ keys) ks ks' → Agree (· ∈ keys) (op ks).2 (op ks').2
  off : ∀ ks : Keyspace, Agree (· ∉ keys) ks (op ks).2
  stats : ∀ {ks ks' : Keyspace}, Agree (· ∈ keys) ks ks' →
    ∃ d, (op ks).2.stats = ks.stats.plus d ∧ (op ks').2.stats = ks'.stats.plus d

namespace LocalTo

theorem done (a : α) : LocalTo keys fun ks => (a, ks) where
  result _ := rfl
  on h := h
  off ks := .refl _ ks
  stats _ := ⟨{}, rfl, rfl⟩

theorem access (hkey : key ∈ keys) (f : Nat → Slot → α × Slot) :
    LocalTo keys fun ks => ks.access key (f ks.now) where
  result {ks ks'} h := by rw [access_fst, access_fst, h.get?_live hkey, h.now]
  on {ks ks'} h := by
    have hentries := ks'.entries_access key (f ks'.now)
    rw [h.get?_live hkey, h.now] at hentries
    rw [h.now]
    exact h.of_entries_set ⟨now_access _ _ _, ks.entries_access key (f ks.now)⟩
      ⟨now_access _ _ _, hentries⟩
  off ks := agree_of_entries_set hkey (now_access _ _ _) (ks.entries_access key (f ks.now))
  stats {ks ks'} h := by
    refine ⟨_, ks.stats_access_eq key _, ?_⟩
    rw [ks'.stats_access_eq key, h.entries key hkey, h.now]

theorem put (hkey : key ∈ keys) (entry : Nat → Entry) :
    LocalTo keys fun ks => ((), ks.put key (entry ks.now)) where
  result _ := rfl
  on {ks ks'} h := by
    rw [h.now]
    exact h.of_entries_set ⟨rfl, entries_put ks key _⟩ ⟨rfl, entries_put ks' key _⟩
  off ks := agree_of_entries_set hkey rfl (entries_put ks key (entry ks.now))
  stats _ := ⟨{}, rfl, rfl⟩

theorem andThen {op : Keyspace → α × Keyspace} {next : α → Keyspace → β × Keyspace}
    (hop : LocalTo keys op) (hnext : ∀ a, LocalTo keys (next a)) :
    LocalTo keys fun ks => next (op ks).1 (op ks).2 where
  result {ks ks'} h := by
    rw [hop.result h]
    exact (hnext _).result (hop.on h)
  on {ks ks'} h := by
    rw [hop.result h]
    exact (hnext _).on (hop.on h)
  off ks := (hop.off ks).trans ((hnext _).off _)
  stats {ks ks'} h := by
    obtain ⟨d, hd, hd'⟩ := hop.stats h
    obtain ⟨d', hlater, hlater'⟩ := (hnext (op ks).1).stats (hop.on h)
    refine ⟨d.plus d', ?_, ?_⟩
    · rw [hlater, hd, Stats.plus_assoc]
    · rw [hop.result h, hlater', hd', Stats.plus_assoc]

theorem map {op : Keyspace → α × Keyspace} (hop : LocalTo keys op) (g : α → β) :
    LocalTo keys fun ks => (g (op ks).1, (op ks).2) :=
  hop.andThen fun a => .done (g a)

theorem of_accesses {R : Nat → Slot → Slot → Prop} {op : Keyspace → α × Keyspace}
    (h : Accesses R keys op) : LocalTo keys op := by
  induction h with
  | done a => exact done a
  | access hkey f _ => exact access hkey f
  | put hkey entry _ => exact put hkey entry
  | andThen _ _ ihop ihnext => exact ihop.andThen ihnext

theorem countCommand : LocalTo keys fun ks => ((), Session.countCommand ks) where
  result _ := rfl
  on h := ⟨h.now, h.entries⟩
  off _ := ⟨rfl, fun _ _ => rfl⟩
  stats _ := ⟨{ commandsProcessed := 1 }, rfl, rfl⟩

end LocalTo

/-- In either order two operations give the same results and leave the same keyspace. -/
def Commute (op : Keyspace → α × Keyspace) (op' : Keyspace → β × Keyspace) : Prop :=
  ∀ ks : Keyspace, (op (op' ks).2).1 = (op ks).1 ∧ (op' (op ks).2).1 = (op' ks).1 ∧
    (op' (op ks).2).2 = (op (op' ks).2).2

/-- What either of two operations leaves, the other finds as it was at the start. -/
theorem LocalTo.commute {op : Keyspace → α × Keyspace} {op' : Keyspace → β × Keyspace}
    {keys' : List Bytes} (h : LocalTo keys op) (h' : LocalTo keys' op')
    (hdisjoint : keys.Disjoint keys') : Commute op op' := by
  intro ks
  have hfinds : Agree (· ∈ keys) ks (op' ks).2 := (h'.off ks).mono fun _ hk hk' => hdisjoint hk hk'
  have hfinds' : Agree (· ∈ keys') ks (op ks).2 := (h.off ks).mono fun _ hk hk' => hdisjoint hk' hk
  have hentries (k : Bytes) :
      (op' (op ks).2).2.entries.get? k = (op (op' ks).2).2.entries.get? k := by
    by_cases hk : k ∈ keys
    · rw [(h'.off _).entries k fun hk' => hdisjoint hk hk', (h.on hfinds).entries k hk]
    · rw [(h.off (op' ks).2).entries k hk]
      by_cases hk' : k ∈ keys'
      · exact (h'.on hfinds').entries k hk'
      · rw [(h'.off _).entries k hk', (h.off ks).entries k hk, (h'.off ks).entries k hk']
  have hnow : (op' (op ks).2).2.now = (op (op' ks).2).2.now := by
    rw [(h'.off _).now, (h.off ks).now, (h.off _).now, (h'.off ks).now]
  have hstats : (op' (op ks).2).2.stats = (op (op' ks).2).2.stats := by
    obtain ⟨d, hd, hlater⟩ := h.stats hfinds
    obtain ⟨d', hd', hlater'⟩ := h'.stats hfinds'
    rw [hlater', hd, hlater, hd', Stats.plus_right_comm]
  refine ⟨h.result hfinds, h'.result hfinds', ?_⟩
  calc (op' (op ks).2).2
      = ⟨(op' (op ks).2).2.entries, (op' (op ks).2).2.now, (op' (op ks).2).2.stats⟩ := rfl
    _ = (op (op' ks).2).2 := by rw [Table.ext_get? hentries, hnow, hstats]

end Keyspace

open Keyspace

/-- A step of a client on the keyspace, as an operation that results in a reply and the client. -/
def Client.onKeyspace {ρ : Type} (step : Keyspace → ρ × Keyspace × Client) (ks : Keyspace) :
    (ρ × Client) × Keyspace :=
  (((step ks).1, (step ks).2.2), (step ks).2.1)

namespace Command

variable {c : Command}

section
variable [Glob.Matcher]

theorem exec_localTo (hc : c.isLocal = true) (client : Client) :
    LocalTo c.named (Client.onKeyspace fun ks => c.exec ks client) :=
  .of_accesses (accesses hc client)

theorem agree_off (hc : c ≠ .server .flushdb) (ks : Keyspace) (client : Client) :
    ks.Agree (· ∉ c.named) (c.exec ks client).2.1 := by
  by_cases hlocal : c.isLocal = true
  · exact (exec_localTo hlocal client).off ks
  cases c with
  | keys c =>
    cases c with
    | keys pattern => exact .refl _ ks
    | _ => exact absurd rfl hlocal
  | server c =>
    cases c with
    | dbsize | info _ => exact .refl _ ks
    | flushdb => exact absurd rfl hc
    | _ => exact absurd rfl hlocal
  | _ => exact absurd rfl hlocal

theorem run_localTo (hc : c.isLocal = true) (client : Client) :
    LocalTo c.named (Client.onKeyspace fun ks => Session.run ks client c) := by
  have hrun : LocalTo c.named fun ks => ((CommandError.replyTo
      (c.exec (Session.countCommand ks) client).1, (c.exec (Session.countCommand ks) client).2.2),
        (c.exec (Session.countCommand ks) client).2.1) :=
    .andThen .countCommand fun _ =>
      (exec_localTo hc client).map fun (r, left) => (CommandError.replyTo r, left)
  refine cast (congrArg (LocalTo c.named) (funext fun ks => ?_)) hrun
  rw [Client.onKeyspace, Session.run, Session.attempt_eq]

/-- Under the keys that it names a command does the same whatever is held under other keys, and it
leaves those alone. Any two commands with no key in common can be executed in either order, within a
session that counts them or without. -/
theorem local_to_named_keys (hc : c.isLocal = true) (client : Client) :
    (∀ ks ks' : Keyspace, ks.Agree (· ∈ c.named) ks' →
      (c.exec ks' client).1 = (c.exec ks client).1 ∧
      (c.exec ks' client).2.2 = (c.exec ks client).2.2 ∧
      (c.exec ks client).2.1.Agree (· ∈ c.named) (c.exec ks' client).2.1) ∧
    (∀ ks : Keyspace, ks.Agree (· ∉ c.named) (c.exec ks client).2.1) ∧
    ∀ (c' : Command) (client' : Client), c'.isLocal = true → c.named.Disjoint c'.named →
      Commute (Client.onKeyspace fun ks => c.exec ks client)
        (Client.onKeyspace fun ks => c'.exec ks client') ∧
      Commute (Client.onKeyspace fun ks => Session.run ks client c)
        (Client.onKeyspace fun ks => Session.run ks client' c') := by
  have hlocal := exec_localTo hc client
  refine ⟨fun ks ks' h => ?_, hlocal.off, fun c' client' hc' hdisjoint => ⟨?_, ?_⟩⟩
  · obtain ⟨hreply, hclient⟩ := Prod.mk.inj (hlocal.result h)
    exact ⟨hreply, hclient, hlocal.on h⟩
  · exact hlocal.commute (exec_localTo hc' client') hdisjoint
  · exact (run_localTo hc client).commute (run_localTo hc' client') hdisjoint

end

/-- One counts up from a number that has expired, the other pops; a third key has expired too, and
what it holds stays. -/
theorem increment_and_pop_commute :
    let expired : Entry := ⟨.string [55], some 5⟩
    let ks : Keyspace := {
      entries := ((Table.empty.insert [97] expired).insert [98] ⟨.list [[120], [121]], none⟩).insert
        [99] expired
      now := 10 }
    let client : Client := { id := 1 }
    let client' : Client := { id := 2 }
    let increment : Command := .strings (.incr [97])
    let pop : Command := .lists (.rpop [98] none)
    let incremented := Client.onKeyspace fun ks => Session.run ks client increment
    let popped := Client.onKeyspace fun ks => Session.run ks client' pop
    increment.isLocal = true ∧ pop.isLocal = true ∧ increment.named.Disjoint pop.named ∧
      Commute incremented popped ∧
      (incremented ks).1 = (.integer 1, client) ∧ (popped ks).1 = (.bulk [121], client') ∧
      (popped (incremented ks).2).2.entries.get? [99] = some expired ∧
      (popped (incremented ks).2).2.stats = { commandsProcessed := 2, expiredKeys := 1 } := by
  intro expired ks client client' increment pop incremented popped
  have hlocal : increment.isLocal = true := rfl
  have hlocal' : pop.isLocal = true := rfl
  have hdisjoint : increment.named.Disjoint pop.named := by
    simp [increment, pop, named, StringCommand.named, ListCommand.named]
  exact ⟨hlocal, hlocal', hdisjoint,
    ((local_to_named_keys hlocal client).2.2 pop client' hlocal' hdisjoint).2,
    by decide, by decide, by decide, by decide⟩

end Command
end RespStore
