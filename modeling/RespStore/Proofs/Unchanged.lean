import RespStore.Glob.Search
import RespStore.Proofs.Reachable

/-! Commands that fail, and commands that only read, change nothing but for dropping what has
expired. -/
namespace RespStore

namespace Keyspace

/-- All that is lost from one keyspace to the other are entries that have expired; the counter of
expired keys alone may have moved. -/
structure Sheds (ks ks' : Keyspace) : Prop where
  now : ks'.now = ks.now
  entries : ∀ key, ks'.entries.get? key = ks.entries.get? key ∨
    ks'.entries.get? key = none ∧ ∃ e ∈ ks.entries.get? key, e.isExpired ks.now = true
  stats : ∃ n, ks'.stats = { ks.stats with expiredKeys := n }

namespace Sheds

variable {ks ks' ks'' : Keyspace}

theorem refl (ks : Keyspace) : ks.Sheds ks := ⟨rfl, fun _ => .inl rfl, ks.stats.expiredKeys, rfl⟩

theorem trans (h : ks.Sheds ks') (h' : ks'.Sheds ks'') : ks.Sheds ks'' where
  now := h'.now.trans h.now
  entries := by
    intro key
    rcases h.entries key with heq | ⟨hnone, hexpired⟩
    · have hlater := h'.entries key
      rwa [heq, h.now] at hlater
    · have hgone : ks''.entries.get? key = none := by
        rcases h'.entries key with heq | ⟨hgone, -⟩
        · rw [heq, hnone]
        · exact hgone
      exact .inr ⟨hgone, hexpired⟩
  stats := by
    obtain ⟨m, hm⟩ := h.stats
    obtain ⟨n, hn⟩ := h'.stats
    exact ⟨n, by rw [hn, hm]⟩

theorem live (h : ks.Sheds ks') : ks'.live = ks.live := by
  refine Table.ext_get? fun key => ?_
  rw [get?_live, get?_live, h.now]
  rcases h.entries key with heq | ⟨hnone, e, he, hexpired⟩
  · rw [heq]
  · rw [hnone, he]
    simp [Option.filter, hexpired]

end Sheds

theorem sheds_access {ks : Keyspace} {key : Bytes} {α : Type} {f : Slot → α × Slot}
    (hf : (f (ks.live.get? key)).2 = ks.live.get? key) : ks.Sheds (ks.access key f).2 where
  now := ks.now_access key f
  entries := by
    intro k
    rw [entries_access, hf, Table.get?_set]
    split
    · next hk =>
      rw [hk, get?_live]
      cases h : ks.entries.get? key with
      | none => exact .inl rfl
      | some e => cases he : e.isExpired ks.now <;> simp [Option.filter, he]
    · exact .inl rfl
  stats := ks.stats_access key f

theorem sheds_tryAccess {ks : Keyspace} {key : Bytes} {α : Type}
    {f : Slot → Except StoreError (α × Slot)}
    (hf : ∀ a left, f (ks.live.get? key) = .ok (a, left) → left = ks.live.get? key) :
    ks.Sheds (ks.tryAccess key f).2 := by
  refine sheds_access ?_
  cases hslot : f (ks.live.get? key) with
  | error e => rfl
  | ok r => exact hf r.1 r.2 hslot

theorem Accesses.sheds {keys : List Bytes} {α : Type} {op : Keyspace → α × Keyspace}
    (hop : Accesses Slot.Untouched keys op) (ks : Keyspace) : ks.Sheds (op ks).2 := by
  induction hop generalizing ks with
  | done a => exact .refl ks
  | access hkey f hf => exact sheds_access (hf _ _)
  | put hkey entry hentry => cases hentry 0 none
  | andThen _ _ ihop ihnext => exact (ihop ks).trans (ihnext _ _)

/-- By induction on the accesses that are made: the one that fails is the last, and those before it
have read. -/
theorem Attempts.sheds_of_error {R : Nat → Slot → Slot → Prop} {keys : List Bytes} {α : Type}
    {op : Keyspace → Except StoreError α × Keyspace} (hop : Attempts R keys op) {ks : Keyspace}
    {e : StoreError} (herror : (op ks).1 = .error e) : ks.Sheds (op ks).2 := by
  induction hop generalizing ks with
  | reads h => exact h.sheds ks
  | sure _ => cases herror
  | tryAccess hkey hf =>
    refine sheds_tryAccess fun a left hok => ?_
    rw [tryAccess_fst, hok] at herror
    cases herror
  | map _ g ih => exact ih (map_eq_error_iff.1 herror)
  | andThen h _ ihnext => exact (h.sheds ks).trans (ihnext _ herror)

end Keyspace

open Keyspace

variable {ks : Keyspace}

theorem KeyCommand.sheds_of_onlyReads [Glob.Matcher] (c : KeyCommand) (hreads : c.onlyReads = true)
    (ks : Keyspace) : ks.Sheds (c.exec ks).2 := by
  cases c with
  | keys pattern => exact .refl ks
  | _ => exact (reads_accesses _ (by nofun) hreads).sheds ks

namespace ListCommand

variable {slot : Slot}

theorem slot_update_popTail (h : slot.Filled) :
    (∃ e, Slot.update (popTail 1) slot = .error e) ∨
      Slot.update (popTail 1) slot = .ok (none, slot) ∨
      ∃ value left, Slot.update (popTail 1) slot = .ok (some [value], left) := by
  unfold Slot.update
  cases hfound : Slot.collection? (List Bytes) slot with
  | error e => exact .inl ⟨e, rfl⟩
  | ok found =>
    cases found with
    | none => exact .inr (.inl rfl)
    | some items =>
      have hne : items ≠ [] := by
        rintro rfl
        exact absurd (Slot.isEmpty_of_collection? h hfound) (by decide)
      obtain ⟨init, value, rfl⟩ := (List.eq_nil_or_concat items).resolve_left hne
      have hpop : popTail 1 (init.concat value) = ([value], init) := by simp [popTail]
      exact .inr (.inr ⟨value, _, by simp only [hpop]; rfl⟩)

/-- An attempt at one key fails, finds nothing and leaves everything in place, or takes one
element. -/
theorem update_popTail (h : ks.Filled) (key : Bytes) :
    (∃ e, (ks.update key (popTail 1)).1 = .error e) ∨
      (ks.update key (popTail 1)).1 = .ok none ∧ ks.Sheds (ks.update key (popTail 1)).2 ∨
      ∃ value, (ks.update key (popTail 1)).1 = .ok (some [value]) := by
  have hfst : (ks.update key (popTail 1)).1 = _ := ks.tryAccess_fst key (Slot.update (popTail 1))
  rw [hfst]
  rcases slot_update_popTail (h.get?_live key) with ⟨cause, hf⟩ | hf | ⟨value, left, hf⟩
  · exact .inl ⟨cause, by rw [hf]; rfl⟩
  · refine .inr (.inl ⟨by rw [hf]; rfl, sheds_tryAccess fun found left hok => ?_⟩)
    rw [hf] at hok
    cases hok
    rfl
  · exact .inr (.inr ⟨value, by rw [hf]; rfl⟩)

theorem filled_update_popTail (h : ks.Filled) (key : Bytes) :
    (ks.update key (popTail 1)).2.Filled := by
  have hedits : Accesses Slot.Edit [key] fun ks => ks.update key (popTail 1) :=
    (Attempts.update List.mem_cons_self (popTail 1)).accesses .keep
  have hop : Accesses (Slot.Change fun _ => True) [key] fun ks => ks.update key (popTail 1) :=
    hedits.changes
  exact hop.filled h

theorem popFirst_sheds_of_error (targets : List Bytes) {ks : Keyspace} (h : ks.Filled)
    {e : StoreError} (herror : (popFirst ks targets).1 = .error e) :
    ks.Sheds (popFirst ks targets).2 := by
  induction targets generalizing ks with
  | nil => cases herror
  | cons key rest ih =>
    have hupdate : Attempts Slot.Edit [key] fun ks => ks.update key (popTail 1) :=
      .update List.mem_cons_self _
    rw [popFirst_cons] at herror ⊢
    rcases update_popTail h key with ⟨cause, hfailed⟩ | ⟨hnone, hsheds⟩ | ⟨value, hpopped⟩
    · rw [hfailed]
      exact hupdate.sheds_of_error hfailed
    · rw [hnone] at herror ⊢
      exact hsheds.trans (ih (filled_update_popTail h key) herror)
    · rw [hpopped] at herror
      cases herror

theorem sheds_of_error (c : ListCommand) (h : ks.Filled) {e : StoreError}
    (herror : (c.exec ks).1 = .error e) : ks.Sheds (c.exec ks).2 := by
  cases c with
  | brpop keys timeout => exact popFirst_sheds_of_error keys h herror
  | _ => exact (attempts _ (by nofun)).sheds_of_error herror

end ListCommand

namespace Command

section
variable [Glob.Matcher]

theorem sheds_of_onlyReads {c : Command} (hreads : c.onlyReads = true) (ks : Keyspace)
    (client : Client) :
    ks.Sheds (c.exec ks client).2.1 ∧ (c.exec ks client).2.2 = client := by
  cases c with
  | keys c => exact ⟨c.sheds_of_onlyReads hreads ks, rfl⟩
  | strings c => exact ⟨(c.reads_accesses hreads).sheds ks, rfl⟩
  | lists c => exact ⟨(c.reads_accesses hreads).sheds ks, rfl⟩
  | sets c => exact ⟨(c.reads_accesses hreads).sheds ks, rfl⟩
  | sortedSets c => exact ⟨(c.reads_accesses hreads).sheds ks, rfl⟩
  | hashes c => exact ⟨(c.reads_accesses hreads).sheds ks, rfl⟩
  | server c =>
    cases c with
    | clientSetLibName | clientSetLibVersion | clientSetName | flushdb | quit => cases hreads
    | _ => exact ⟨.refl ks, rfl⟩
  | transaction c => cases hreads

theorem sheds_of_error {ks : Keyspace} (h : ks.Filled) (client : Client) {c : Command}
    {e : CommandError} (herror : (c.exec ks client).1 = .error e) :
    ks.Sheds (c.exec ks client).2.1 ∧ (c.exec ks client).2.2 = client := by
  have hstore (r : Outcome) (hr : ∀ cause, r.1 = .error cause → ks.Sheds r.2)
      (hfails : r.1.mapError CommandError.store = .error e) : ks.Sheds r.2 ∧ client = client := by
    obtain ⟨cause, hcause, -⟩ := mapError_eq_error_iff.1 hfails
    exact ⟨hr cause hcause, rfl⟩
  cases c with
  | keys c => cases herror
  | strings c => exact hstore (c.exec ks) (fun _ => c.attempts.sheds_of_error) herror
  | lists c => exact hstore (c.exec ks) (fun _ => c.sheds_of_error h) herror
  | sets c => exact hstore (c.exec ks) (fun _ => c.attempts.sheds_of_error) herror
  | sortedSets c => exact hstore (c.exec ks) (fun _ => c.attempts.sheds_of_error) herror
  | hashes c => exact hstore (c.exec ks) (fun _ => c.attempts.sheds_of_error) herror
  | server c => cases herror
  | transaction c => exact ⟨.refl ks, rfl⟩

/-- Wherever a server gets to, a command that fails and one that only reads leave what is live and
what is known of the client as they are. -/
theorem failed_or_reading_unchanged {ks : Keyspace} (hks : ks.Reachable) (client : Client)
    {c : Command} (h : (∃ e, (c.exec ks client).1 = .error e) ∨ c.onlyReads = true) :
    (c.exec ks client).2.1.live = ks.live ∧ (c.exec ks client).2.2 = client ∧
      ks.Sheds (c.exec ks client).2.1 := by
  have hsheds : ks.Sheds (c.exec ks client).2.1 ∧ (c.exec ks client).2.2 = client := by
    rcases h with ⟨e, herror⟩ | hreads
    · exact sheds_of_error hks.filled client herror
    · exact sheds_of_onlyReads hreads ks client
  exact ⟨hsheds.1.live, hsheds.2, hsheds.1⟩

end

/-- A walk over two keys drops the first, which has expired, and fails at the second. -/
theorem pop_fails_past_expired_key :
    let client : Client := { id := 1 }
    let frame (words : List String) : Frame := .bulkArray (words.map Bytes.ofString)
    let setA : Command := .strings (.psetex [97] 10 [120])
    let setB : Command := .strings (.set [98] [121] {})
    let pop : Command := .lists (.brpop [[97], [98]] 0)
    let ks := (setB.exec (setA.exec {} client).2.1 client).2.1.advance 10
    Command.ofFrame (frame ["PSETEX", "a", "10", "x"]) = .ok setA ∧
      Command.ofFrame (frame ["SET", "b", "y"]) = .ok setB ∧ ks.Reachable ∧
      (pop.exec ks client).1 = .error (.store .wrongType) ∧
      (pop.exec ks client).2.1 ≠ ks ∧ (pop.exec ks client).2.1.live = ks.live := by
  intro client frame setA setB pop ks
  have hsetA : Command.ofFrame (frame ["PSETEX", "a", "10", "x"]) = .ok setA := rfl
  have hsetB : Command.ofFrame (frame ["SET", "b", "y"]) = .ok setB := rfl
  have hks : ks.Reachable := ((Reachable.start.exec hsetA client).exec hsetB client).advance 10
  have hfails : (pop.exec ks client).1 = .error (.store .wrongType) := rfl
  have hdropped : (pop.exec ks client).2.1 ≠ ks := by decide
  exact ⟨hsetA, hsetB, hks, hfails, hdropped,
    (failed_or_reading_unchanged hks client (.inl ⟨_, hfails⟩)).1⟩

end Command
end RespStore
