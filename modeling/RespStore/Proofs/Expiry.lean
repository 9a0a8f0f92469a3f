import RespStore.Proofs.Keyspace
import RespStore.Proofs.Request.WellTimed
import RespStore.Proofs.Session

/-! Expiry is lazy, and no client can tell it from a keyspace that drops all that expires as the
clock moves. -/
namespace RespStore

namespace Keyspace

/-- Drops all that has expired. -/
def purge (ks : Keyspace) : Keyspace := { ks with entries := ks.live }

/-- What `eager` holds is what is live in `lazy`. The counters agree but for that of expired
keys, which counts accesses in `lazy`. -/
structure Shows (lazy eager : Keyspace) : Prop where
  now : eager.now = lazy.now
  entries : eager.entries = lazy.live
  stats : ∃ n, eager.stats = { lazy.stats with expiredKeys := n }

namespace Shows

variable {lazy eager : Keyspace}

theorem live_advance (h : Shows lazy eager) (millis : Nat) :
    (eager.advance millis).live = (lazy.advance millis).live := by
  have hexpired : ∀ b : Bytes × Entry, (!b.2.isExpired (lazy.now + millis)) = true →
      (!b.2.isExpired lazy.now) = true := by
    intro b hb
    rw [Bool.not_eq_true'] at hb ⊢
    refine Bool.eq_false_iff.2 fun he => ?_
    rw [Entry.isExpired_mono (Nat.le_add_right _ millis) he] at hb
    cases hb
  calc (eager.advance millis).live
      = lazy.live.filter fun b => !b.2.isExpired (lazy.now + millis) := by
        simp only [Keyspace.live, Keyspace.advance, h.entries, h.now]
    _ = (lazy.advance millis).live := Table.filter_filter_of_imp lazy.entries hexpired

theorem live (h : Shows lazy eager) : eager.live = lazy.live := h.live_advance 0

theorem get?_live (h : Shows lazy eager) (key : Bytes) :
    eager.live.get? key = lazy.live.get? key := by
  rw [h.live]

theorem of_entries_set {lazy' eager' : Keyspace} {key : Bytes} {slot : Slot}
    (h : Shows lazy eager) (hslot : Slot.LiveAt lazy.now slot)
    (hlazy : lazy'.now = lazy.now ∧ lazy'.entries = lazy.entries.set key slot)
    (heager : eager'.now = eager.now ∧ eager'.entries = eager.entries.set key slot)
    (hstats : ∃ n, eager'.stats = { lazy'.stats with expiredKeys := n }) :
    Shows lazy' eager' where
  now := by rw [heager.1, hlazy.1, h.now]
  entries := by rw [heager.2, h.entries, live_of_entries_set hlazy.1 hlazy.2 hslot]
  stats := hstats

theorem access {α : Type} (h : Shows lazy eager) (key : Bytes) {f : Slot → α × Slot}
    (hf : ∀ slot, Slot.LiveAt lazy.now slot → Slot.LiveAt lazy.now (f slot).2) :
    (eager.access key f).1 = (lazy.access key f).1 ∧
      Shows (lazy.access key f).2 (eager.access key f).2 := by
  have hreply : (eager.access key f).1 = (lazy.access key f).1 := by
    rw [access_fst, access_fst, h.get?_live]
  have hentries := eager.entries_access key f
  rw [h.get?_live] at hentries
  obtain ⟨n, hlazy⟩ := lazy.stats_access key f
  obtain ⟨m, heager⟩ := eager.stats_access key f
  obtain ⟨k, hstats⟩ := h.stats
  refine ⟨hreply, h.of_entries_set (hf _ (lazy.liveAt_get?_live key))
    ⟨lazy.now_access key f, lazy.entries_access key f⟩ ⟨eager.now_access key f, hentries⟩ ⟨m, ?_⟩⟩
  rw [heager, hlazy, hstats]

theorem put (h : Shows lazy eager) (key : Bytes) {e : Entry}
    (he : Slot.LiveAt lazy.now (some e)) : Shows (lazy.put key e) (eager.put key e) :=
  h.of_entries_set he ⟨rfl, rfl⟩ ⟨rfl, rfl⟩ h.stats

/-- By induction on the accesses that an operation is made of. -/
theorem accesses {keys : List Bytes} {α : Type} {op : Keyspace → α × Keyspace}
    (hop : Accesses (Slot.Change (0 < ·)) keys op) {lazy eager : Keyspace} (h : Shows lazy eager) :
    (op eager).1 = (op lazy).1 ∧ Shows (op lazy).2 (op eager).2 := by
  induction hop generalizing lazy eager with
  | done a => exact ⟨rfl, h⟩
  | access hkey f hf =>
    simp only [h.now]
    exact h.access _ fun slot hslot => (hf _ slot).liveAt hslot
  | put hkey entry hentry =>
    simp only [h.now]
    exact ⟨trivial, h.put _ ((hentry _ none).liveAt Slot.liveAt_none)⟩
  | andThen hop hnext ihop ihnext =>
    obtain ⟨hreply, hshows⟩ := ihop h
    dsimp only
    rw [hreply]
    exact ihnext _ hshows

theorem mapStats (h : Shows lazy eager) {f : Stats → Stats}
    (hf : ∀ st n, ∃ m, f { st with expiredKeys := n } = { f st with expiredKeys := m }) :
    Shows (lazy.mapStats f) (eager.mapStats f) where
  now := h.now
  entries := h.entries
  stats := by
    obtain ⟨n, hn⟩ := h.stats
    obtain ⟨m, hm⟩ := hf lazy.stats n
    exact ⟨m, by rw [Keyspace.mapStats, hn, hm]; rfl⟩

theorem flush (h : Shows lazy eager) : Shows lazy.flush eager.flush := ⟨h.now, rfl, h.stats⟩

theorem advance (h : Shows lazy eager) (millis : Nat) :
    Shows (lazy.advance millis) (eager.advance millis).purge where
  now := by simp only [Keyspace.purge, Keyspace.advance, h.now]
  entries := h.live_advance millis
  stats := h.stats

end Shows
end Keyspace

open Keyspace

variable {lazy eager : Keyspace}

theorem KeyCommand.exec_shows [Glob.Matcher] (h : Shows lazy eager) (c : KeyCommand) :
    (c.exec eager).1 = (c.exec lazy).1 ∧ Shows (c.exec lazy).2 (c.exec eager).2 := by
  cases c with
  | keys pattern =>
    refine ⟨?_, h⟩
    show Frame.bulkArray _ = Frame.bulkArray _
    rw [Keyspace.keys, Keyspace.keys, h.live]
  | _ => exact h.accesses (accesses _ (by nofun))

theorem ServerCommand.exec_shows (h : Shows lazy eager) (client : Client) {c : ServerCommand}
    (hc : ∀ names, c ≠ .info names) :
    (c.exec eager client).1 = (c.exec lazy client).1 ∧
      Shows (c.exec lazy client).2.1 (c.exec eager client).2.1 ∧
      (c.exec eager client).2.2 = (c.exec lazy client).2.2 := by
  cases c with
  | info names => exact absurd rfl (hc names)
  | dbsize =>
    refine ⟨?_, h, rfl⟩
    show Frame.count _ = Frame.count _
    rw [Keyspace.size, Keyspace.size, h.live]
  | flushdb => exact ⟨rfl, h.flush, rfl⟩
  | _ => exact ⟨rfl, h, rfl⟩

/-- Every command but the report sees what is live and nothing else. -/
theorem Command.exec_shows [Glob.Matcher] (h : Shows lazy eager) (client : Client) {c : Command}
    (hc : c.WellTimed) (hinfo : ∀ names, c ≠ .server (.info names)) :
    (c.exec eager client).1 = (c.exec lazy client).1 ∧
      Shows (c.exec lazy client).2.1 (c.exec eager client).2.1 ∧
      (c.exec eager client).2.2 = (c.exec lazy client).2.2 := by
  have hstore {keys : List Bytes} {op : Keyspace → Outcome}
      (hop : Accesses (Slot.Change (0 < ·)) keys op) :
      (op eager).1.mapError CommandError.store = (op lazy).1.mapError CommandError.store ∧
        Shows (op lazy).2 (op eager).2 ∧ client = client := by
    obtain ⟨hreply, hshows⟩ := h.accesses hop
    exact ⟨by rw [hreply], hshows, rfl⟩
  cases c with
  | keys c =>
    obtain ⟨hreply, hshows⟩ := c.exec_shows h
    exact ⟨congrArg Except.ok hreply, hshows, rfl⟩
  | strings c => exact hstore (c.accesses.mono (Slot.Change.mono hc))
  | lists c => exact hstore c.accesses.changes
  | sets c => exact hstore c.accesses.changes
  | sortedSets c => exact hstore c.accesses.changes
  | hashes c => exact hstore c.accesses.changes
  | server c =>
    obtain ⟨hreply, hshows, hclient⟩ :=
      c.exec_shows h client fun names heq => hinfo names (congrArg Command.server heq)
    exact ⟨congrArg Except.ok hreply, hshows, hclient⟩
  | transaction c => exact ⟨rfl, h, rfl⟩

namespace Info

def reportAround (before after : String) (expired : Nat) : String :=
  before ++ ("\r\n" ++ ("expired_keys" ++ (":" ++ (toString expired ++ ("\r\n" ++ after)))))

theorem intercalate_around (s : String) (before after : List String) :
    ∃ p q, ∀ t, s.intercalate (before ++ t :: after) = p ++ t ++ q := by
  induction before with
  | nil =>
    cases after with
    | nil => exact ⟨"", "", fun t => by simp⟩
    | cons a rest =>
      exact ⟨"", s ++ s.intercalate (a :: rest), fun t => by simp [String.append_assoc]⟩
  | cons b rest ih =>
    obtain ⟨p, q, h⟩ := ih
    refine ⟨b ++ s ++ p, q, fun t => ?_⟩
    rw [List.cons_append, String.intercalate_cons_of_ne_nil (by simp), h]
    simp only [String.append_assoc]

def statsHead (st : Stats) : String :=
  "# " ++ ("Stats" ++ ("\r\n" ++ ("total_connections_received" ++ (":" ++
    (toString st.connectionsReceived ++ ("\r\n" ++ ("total_commands_processed" ++ (":" ++
      toString st.commandsProcessed))))))))

theorem text_stats_around (ks : Keyspace) (p q : String) :
    p ++ (stats ks).text ++ q = reportAround (p ++ statsHead ks.stats) q ks.stats.expiredKeys := by
  simp only [Section.text, stats, reportAround, statsHead, List.map_cons, List.map_nil,
    String.join_cons, String.join_nil, String.append_empty, String.append_assoc]

theorem sections_shows (h : Shows lazy eager) :
    server eager = server lazy ∧ clients eager = clients lazy ∧ keyspace eager = keyspace lazy ∧
      statsHead eager.stats = statsHead lazy.stats := by
  obtain ⟨n, hn⟩ := h.stats
  refine ⟨?_, ?_, ?_, ?_⟩
  · rw [server, server, h.now]
  · rw [clients, clients, hn]
  · rw [keyspace, keyspace, size, size, expires, expires, h.live]
  · rw [statsHead, statsHead, hn]

/-- Reports on keyspaces that show the same differ in the line on expired keys at most. -/
theorem report_shows (h : Shows lazy eager) (names : List String) :
    report eager names = report lazy names ∨ ∃ before after,
      report lazy names = reportAround before after lazy.stats.expiredKeys ∧
      report eager names = reportAround before after eager.stats.expiredKeys := by
  obtain ⟨hserver, hclients, hkeyspace, hhead⟩ := sections_shows h
  have hsplit (ks : Keyspace) :
      sections ks = [server ks, clients ks] ++ stats ks :: [keyspace ks] := rfl
  unfold report
  rw [hsplit, hsplit, hserver, hclients, hkeyspace, List.filter_append, List.filter_append]
  by_cases hw : wants names (stats lazy)
  · right
    have hw' : wants names (stats eager) := hw
    rw [List.filter_cons_of_pos hw, List.filter_cons_of_pos hw', List.map_append, List.map_append,
      List.map_cons, List.map_cons]
    obtain ⟨p, q, hpq⟩ := intercalate_around "\r\n"
      (([server lazy, clients lazy].filter (wants names)).map Section.text)
      (([keyspace lazy].filter (wants names)).map Section.text)
    refine ⟨p ++ statsHead lazy.stats, q, ?_, ?_⟩
    · rw [hpq, text_stats_around]
    · rw [hpq, text_stats_around, hhead]
  · left
    have hw' : ¬ wants names (stats eager) := hw
    rw [List.filter_cons_of_neg hw, List.filter_cons_of_neg hw']

end Info

theorem Session.run_shows [Glob.Matcher] (h : Shows lazy eager) (client : Client) {c : Command}
    (hc : c.WellTimed) (hinfo : ∀ names, c ≠ .server (.info names)) :
    (run eager client c).1 = (run lazy client c).1 ∧
      Shows (run lazy client c).2.1 (run eager client c).2.1 ∧
      (run eager client c).2.2 = (run lazy client c).2.2 := by
  have hcounted : Shows (countCommand lazy) (countCommand eager) :=
    h.mapStats fun st n => ⟨n, rfl⟩
  obtain ⟨hreply, hrest⟩ := Command.exec_shows hcounted client hc hinfo
  simp only [run, attempt_eq, hreply]
  exact ⟨trivial, hrest⟩

namespace Expiry

/-- What comes to a server: requests of a client, and time passes. -/
inductive Event where
  | request (frame : Frame)
  | advance (millis : Nat)

def serve [Glob.Matcher] (s : Keyspace × Client) (request : Frame) : Frame × Keyspace × Client :=
  match Command.ofFrame request with
  | .error e => (.error e.message, s)
  | .ok c => Session.run s.1 s.2 c

variable [Glob.Matcher]

def stepLazy (s : Keyspace × Client) : Event → Keyspace × Client
  | .request frame => (serve s frame).2
  | .advance millis => (s.1.advance millis, s.2)

def stepEager (s : Keyspace × Client) : Event → Keyspace × Client
  | .request frame => (serve s frame).2
  | .advance millis => ((s.1.advance millis).purge, s.2)

/-- Replies to a request that are the same, but that of two reports the line on expired keys may
differ. -/
def SameReply (request : Frame) (r r' : Frame) : Prop :=
  match Command.ofFrame request with
  | .ok (.server (.info _)) => r = r' ∨ ∃ before after m n,
      r = .bulk (Bytes.ofString (Info.reportAround before after m)) ∧
      r' = .bulk (Bytes.ofString (Info.reportAround before after n))
  | _ => r = r'

theorem serve_shows (h : Shows lazy eager) (client : Client) (request : Frame) :
    SameReply request (serve (eager, client) request).1 (serve (lazy, client) request).1 ∧
      Shows (serve (lazy, client) request).2.1 (serve (eager, client) request).2.1 ∧
      (serve (eager, client) request).2.2 = (serve (lazy, client) request).2.2 := by
  unfold SameReply serve
  cases hread : Command.ofFrame request with
  | error e => exact ⟨rfl, h, rfl⟩
  | ok c =>
    by_cases hinfo : ∃ names, c = .server (.info names)
    · obtain ⟨names, rfl⟩ := hinfo
      have hcounted : Shows (Session.countCommand lazy) (Session.countCommand eager) :=
        h.mapStats fun st n => ⟨n, rfl⟩
      refine ⟨?_, hcounted, rfl⟩
      show Frame.bulk _ = Frame.bulk _ ∨ _
      rcases Info.report_shows hcounted names with heq | ⟨before, after, hlazy, heager⟩
      · exact .inl (by rw [heq])
      · exact .inr ⟨before, after, eager.stats.expiredKeys, lazy.stats.expiredKeys,
          congrArg (Frame.bulk ∘ Bytes.ofString) heager, congrArg (Frame.bulk ∘ Bytes.ofString) hlazy⟩
    · have hnot : ∀ names, c ≠ .server (.info names) := fun names heq => hinfo ⟨names, heq⟩
      obtain ⟨hreply, hrest⟩ :=
        Session.run_shows h client (Command.wellTimed_of_ofFrame hread) hnot
      refine ⟨?_, hrest⟩
      split
      · next names heq => exact absurd (Except.ok.inj heq) (hnot names)
      · exact hreply

/-- The two go on to show the same from event to event. -/
theorem run_shows (events : List Event) (h : Shows lazy eager) (client : Client) :
    Shows (events.foldl stepLazy (lazy, client)).1 (events.foldl stepEager (eager, client)).1 ∧
      (events.foldl stepEager (eager, client)).2 = (events.foldl stepLazy (lazy, client)).2 := by
  induction events generalizing lazy eager client with
  | nil => exact ⟨h, rfl⟩
  | cons event rest ih =>
    cases event with
    | request frame =>
      obtain ⟨-, hshows, hclient⟩ := serve_shows h client frame
      have heager : (serve (eager, client) frame).2 =
          ((serve (eager, client) frame).2.1, (serve (lazy, client) frame).2.2) :=
        Prod.ext rfl hclient
      simp only [List.foldl_cons, stepLazy, stepEager]
      rw [heager]
      exact ih hshows _
    | advance millis => exact ih (h.advance millis) client

/-- Whatever requests came and however the clock moved, the lazy and the eager keyspace hold the
same live entries, the eager one no others, and the next request gets the same reply. -/
theorem lazy_expiry_invisible (client : Client) (events : List Event) :
    let lazy := events.foldl stepLazy ({}, client)
    let eager := events.foldl stepEager ({}, client)
    eager.1.live = lazy.1.live ∧ eager.1.entries = eager.1.live ∧ eager.2 = lazy.2 ∧
      ∀ request, SameReply request (serve eager request).1 (serve lazy request).1 := by
  intro lazy eager
  have hstart : Shows {} {} := ⟨rfl, rfl, 0, rfl⟩
  obtain ⟨hshows, hclient⟩ := run_shows events hstart client
  refine ⟨hshows.live, by rw [hshows.live]; exact hshows.entries, hclient, fun request => ?_⟩
  have heager : eager = (eager.1, lazy.2) := Prod.ext rfl hclient
  rw [heager]
  exact (serve_shows hshows lazy.2 request).1

end Expiry
end RespStore
