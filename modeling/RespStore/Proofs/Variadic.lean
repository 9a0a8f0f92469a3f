import Mathlib.Algebra.GroupWithZero.Nat
import RespStore.Proofs.Holding
import RespStore.Proofs.WrongType

/-! Commands executed one after the other, followed on the collection under a key. -/
namespace RespStore

section Traces

variable {σ τ ι κ β γ : Type}

/-- Takes a step for each item in turn, and lists what each of them gives. -/
def trace (step : σ → ι → β × σ) : σ → List ι → List β × σ
  | s, [] => ([], s)
  | s, item :: rest =>
    let (result, s) := step s item
    let (results, s) := trace step s rest
    (result :: results, s)

theorem trace_cons (step : σ → ι → β × σ) (s : σ) (item : ι) (rest : List ι) :
    trace step s (item :: rest) = ((step s item).1 :: (trace step (step s item).2 rest).1,
      (trace step (step s item).2 rest).2) := rfl

/-- Steps that a relation between states follows. By induction on the items. -/
theorem trace_simulates {step : σ → ι → β × σ} {step' : τ → κ → γ × τ} {R : σ → τ → Prop}
    {item : ι → κ} {result : β → γ}
    (hstep : ∀ {s t} i, R s t →
      (step' t (item i)).1 = result (step s i).1 ∧ R (step s i).2 (step' t (item i)).2)
    {s : σ} {t : τ} (h : R s t) (items : List ι) :
    (trace step' t (items.map item)).1 = (trace step s items).1.map result ∧
      R (trace step s items).2 (trace step' t (items.map item)).2 := by
  induction items generalizing s t with
  | nil => exact ⟨rfl, h⟩
  | cons i rest ih =>
    obtain ⟨hresult, hnext⟩ := hstep i h
    obtain ⟨hresults, hlast⟩ := ih hnext
    rw [List.map_cons, trace_cons, trace_cons, hresult, hresults]
    exact ⟨rfl, hlast⟩

theorem trace_map (step : σ → ι → β × σ) (result : β → γ) (s : σ) (items : List ι) :
    trace (fun s i => (result (step s i).1, (step s i).2)) s items =
      ((trace step s items).1.map result, (trace step s items).2) := by
  induction items generalizing s with
  | nil => rfl
  | cons i rest ih => rw [trace_cons, ih, trace_cons, List.map_cons]

theorem trace_of_unchanged (result : σ → ι → β) (s : σ) (items : List ι) :
    trace (fun s i => (result s i, s)) s items = (items.map (result s), s) := by
  induction items with
  | nil => rfl
  | cons i rest ih => rw [trace_cons, ih, List.map_cons]

theorem snd_trace (step : σ → ι → β × σ) (s : σ) (items : List ι) :
    (trace step s items).2 = items.foldl (fun s i => (step s i).2) s := by
  induction items generalizing s with
  | nil => rfl
  | cons i rest ih => exact ih (step s i).2

/-- Where each result tells of the state that its step leaves, the last tells of the last. -/
theorem getLast?_trace {step : σ → ι → β × σ} {tell : σ → β}
    (htell : ∀ s i, (step s i).1 = tell (step s i).2) (s : σ) (items : List ι) :
    ∀ result ∈ (trace step s items).1.getLast?, result = tell (trace step s items).2 := by
  -- The induction starts from a state that nothing has been told of yet.
  have hlast : (trace step s items).1.getLast?.getD (tell s) = tell (trace step s items).2 := by
    induction items generalizing s with
    | nil => rfl
    | cons i rest ih =>
      rw [trace_cons, List.getLast?_cons, Option.getD_some, htell]
      exact ih (step s i).2
  intro result hresult
  rw [← hlast, Option.mem_def.1 hresult]
  rfl

/-- What is counted at once is the sum of what is counted item by item. -/
theorem tally_eq_trace (step : σ → ι → Bool × σ) (s : σ) (items : List ι) :
    tally step s items = ((trace (fun s i => tally step s [i]) s items).1.sum,
      (trace (fun s i => tally step s [i]) s items).2) := by
  induction items generalizing s with
  | nil => rfl
  | cons i rest ih =>
    have hcons : tally step s (i :: rest) = ((step s i).1.toNat + (tally step (step s i).2 rest).1,
      (tally step (step s i).2 rest).2) := rfl
    rw [hcons, ih, trace_cons, List.sum_cons]
    rfl

theorem tally_of_idle {step : σ → ι → Bool × σ} {s : σ} (h : ∀ i, step s i = (false, s))
    (items : List ι) : tally step s items = (0, s) := by
  induction items with
  | nil => rfl
  | cons i rest ih =>
    unfold tally
    rw [h i]
    dsimp only
    rw [ih]
    rfl

end Traces

namespace Keyspace

theorem forEach_eq_trace {α : Type} (op : Keyspace → Bytes → α × Keyspace) (ks : Keyspace)
    (keys : List Bytes) : ks.forEach op keys = trace op ks keys := by
  induction keys generalizing ks with
  | nil => rfl
  | cons key rest ih =>
    have hcons : ks.forEach op (key :: rest) = ((op ks key).1 :: ((op ks key).2.forEach op rest).1,
      ((op ks key).2.forEach op rest).2) := rfl
    rw [hcons, ih, trace_cons]

end Keyspace

namespace Slot

variable {α : Type} [Collection α]

/-- A collection that is empty has been made on demand. -/
def Fresh (deadline : Option Nat) (c : α) : Prop :=
  Collection.isEmpty c = true → c = Collection.empty ∧ deadline = none

theorem Fresh.of_kept {deadline : Option Nat} {c c' : α} (h : Fresh deadline c)
    (hkept : Collection.isEmpty c' = true → c' = c) : Fresh deadline c' := by
  intro hempty
  obtain rfl := hkept hempty
  exact h hempty

/-- Where nothing of another type is, there is a collection, if only an empty one. -/
theorem exists_ofCollection [LawfulCollection α] {slot : Slot} (hfilled : slot.Filled)
    (h : ¬ slot.Mistyped (Collection.typeName α)) :
    ∃ (deadline : Option Nat) (c : α), Fresh deadline c ∧ slot = ofCollection deadline c := by
  cases slot with
  | none =>
    have hempty : Collection.isEmpty (Collection.empty : α) = true := Collection.isEmpty_empty
    exact ⟨none, Collection.empty, fun _ => ⟨rfl, rfl⟩, (ofCollection_of_isEmpty hempty).symm⟩
  | some e =>
    obtain ⟨value, deadline⟩ := e
    rw [mistyped_some_iff, not_not] at h
    have hsome : (Collection.ofValue? value : Option α).isSome = true :=
      (LawfulCollection.isSome_ofValue?_iff value).2 h
    obtain ⟨c, hc⟩ := Option.isSome_iff_exists.1 hsome
    obtain rfl : value = Collection.toValue c := Collection.ofValue?_eq_some_iff.1 hc
    have hkept : ¬ Collection.isEmpty c = true := Bool.eq_false_iff.1 (isEmpty_of_filled hfilled)
    exact ⟨deadline, c, fun hempty => absurd hempty hkept, (ofCollection_of_filled hfilled).symm⟩

end Slot

namespace Command

variable [Glob.Matcher]

/-- Executes commands one after the other, for one client, and lists the outcomes. -/
def execEach (start : Keyspace × Client) (commands : List Command) :
    List (Except CommandError Frame) × Keyspace × Client :=
  trace (fun s c => c.exec s.1 s.2) start commands

variable {α : Type} [Collection α] {key : Bytes} {fit : Option Nat → α → Prop}

/-- What a command makes of the collection under a key, if that is fit for it: it replies with one
part of what a function of the collection gives and leaves the other. -/
def Acts (key : Bytes) (fit : Option Nat → α → Prop) (c : Command) (f : α → Frame × α) : Prop :=
  ∀ (ks : Keyspace) (client : Client) (deadline : Option Nat) (x : α), fit deadline x →
    ks.live.get? key = Slot.ofCollection deadline x →
      (c.exec ks client).1 = .ok (f x).1 ∧
        (c.exec ks client).2.1.live = ks.live.set key (Slot.ofCollection deadline (f x).2)

/-- A command makes an access, and replies to its client with what comes of that. -/
def Does (c : Command) (op : Keyspace → Outcome) : Prop :=
  ∀ ks client, c.exec ks client = ((op ks).1.mapError .store, (op ks).2, client)

theorem Acts.congr {c : Command} {f f' : α → Frame × α} (h : c.Acts key fit f)
    (hf : ∀ x, f x = f' x) : c.Acts key fit f' := by
  rwa [← funext hf]

/-- All that has changed since a keyspace is the collection under a key, and it is fit. -/
def OnlyHolds (key : Bytes) (fit : Option Nat → α → Prop) (ks : Keyspace) (deadline : Option Nat)
    (x : α) (s : Keyspace × Client) : Prop :=
  fit deadline x ∧ s.1.live = ks.live.set key (Slot.ofCollection deadline x)

omit [Glob.Matcher] in
theorem OnlyHolds.get?_live {ks : Keyspace} {deadline : Option Nat} {x : α} {s : Keyspace × Client}
    (h : OnlyHolds key fit ks deadline x s) :
    s.1.live.get? key = Slot.ofCollection deadline x := by
  rw [h.2, Table.get?_set, if_pos rfl]

theorem Acts.onlyHolds {c : Command} {f : α → Frame × α} (hc : c.Acts key fit f) {ks : Keyspace}
    {deadline : Option Nat} {x : α} {s : Keyspace × Client}
    (h : OnlyHolds key fit ks deadline x s) (hfit : fit deadline (f x).2) :
    (c.exec s.1 s.2).1 = .ok (f x).1 ∧
      OnlyHolds key fit ks deadline (f x).2 (c.exec s.1 s.2).2 := by
  obtain ⟨hreply, hleft⟩ := hc s.1 s.2 deadline x h.1 h.get?_live
  rw [h.2, Table.set_set] at hleft
  exact ⟨hreply, hfit, hleft⟩

/-- A run of commands takes the collection through the same states as their functions do. -/
theorem execEach_of_acts {ι : Type} {single : ι → Command} {step : α → ι → Frame × α}
    (hsingle : ∀ i, (single i).Acts key fit fun x => step x i)
    (hfit : ∀ {deadline x} i, fit deadline x → fit deadline (step x i).2)
    {ks : Keyspace} {deadline : Option Nat} {x : α} (hx : fit deadline x)
    (h : ks.live.get? key = Slot.ofCollection deadline x) (client : Client) (items : List ι) :
    (execEach (ks, client) (items.map single)).1 = (trace step x items).1.map .ok ∧
      (execEach (ks, client) (items.map single)).2.1.live =
        ks.live.set key (Slot.ofCollection deadline (trace step x items).2) := by
  have hstart : OnlyHolds key fit ks deadline x (ks, client) :=
    ⟨hx, (Table.set_of_get?_eq h).symm⟩
  obtain ⟨hreplies, -, hlive⟩ := trace_simulates
    (fun i hs => (hsingle i).onlyHolds hs (hfit i hs.1)) hstart items
  exact ⟨hreplies, hlive⟩

theorem execEach_of_mistyped {typeName : String} {commands : List Command}
    (hcommands : ∀ c ∈ commands, c.Addresses key typeName) {ks : Keyspace} (hks : ks.Filled)
    (h : Slot.Mistyped typeName (ks.live.get? key)) (client : Client) :
    (∀ reply ∈ (execEach (ks, client) commands).1, reply = .error (.store .wrongType)) ∧
      (execEach (ks, client) commands).2.1.live = ks.live := by
  induction commands generalizing ks client with
  | nil => exact ⟨nofun, rfl⟩
  | cons c rest ih =>
    obtain ⟨hc, hrest⟩ := List.forall_mem_cons.1 hcommands
    have hfails : (c.exec ks client).1 = .error (.store .wrongType) :=
      (hc.wrongType_iff ks client).2 h
    have hsame : (c.exec ks client).2.1.live = ks.live := (sheds_of_error hks client hfails).1.live
    obtain ⟨hreplies, hlive⟩ := ih hrest (c.exec_filled hks client) (by rwa [hsame])
      (c.exec ks client).2.2
    exact ⟨List.forall_mem_cons.2 ⟨hfails, hreplies⟩, hlive.trans hsame⟩

section Accesses

variable {β : Type} [LawfulCollection α] {c : Command}

theorem acts_upsert {reply : β → Frame} {f : α → β × α}
    (hc : c.Does fun ks => answer reply (ks.upsert key f)) :
    c.Acts key Slot.Fresh fun x => (reply (f x).1, (f x).2) := by
  intro ks client deadline x hx h
  obtain ⟨hresult, hlive⟩ := Keyspace.upsert_of_held h hx f
  rw [hc]
  exact ⟨mapError_eq_ok_iff.2 (congrArg (Except.map reply) hresult), hlive⟩

theorem acts_update {reply : Option β → Frame} {f : α → β × α}
    (hc : c.Does fun ks => answer reply (ks.update key f))
    (hf : ∀ x, Collection.isEmpty x = true → (f x).2 = x) :
    c.Acts key (fun _ _ => True) fun x =>
      (reply (if Collection.isEmpty x = true then none else some (f x).1), (f x).2) := by
  intro ks client deadline x _ h
  obtain ⟨hresult, hlive⟩ := Keyspace.update_of_held h (hf x)
  rw [hc]
  exact ⟨mapError_eq_ok_iff.2 (congrArg (Except.map reply) hresult), hlive⟩

theorem acts_removal {f : α → Nat × α}
    (hc : c.Does fun ks => answer (fun removed => .count (removed.getD 0)) (ks.update key f))
    (hf : ∀ x, Collection.isEmpty x = true → f x = (0, x)) :
    c.Acts key (fun _ _ => True) fun x => (.count (f x).1, (f x).2) := by
  have hacts := acts_update hc fun x hx => by rw [hf x hx]
  have hcount (x : α) :
      (if Collection.isEmpty x = true then none else some (f x).1).getD 0 = (f x).1 := by
    split
    · next hx => rw [hf x hx, Option.getD_none]
    · rfl
  simpa only [hcount] using hacts

omit [LawfulCollection α] in
theorem acts_read (reply : Option α → Frame)
    (hc : c.Does fun ks => answer reply (ks.getAs α key)) :
    c.Acts key (fun _ _ => True) fun x =>
      (reply (if Collection.isEmpty x = true then none else some x), x) := by
  intro ks client deadline x _ h
  have hresult := Keyspace.getAs_of_held h
  have hread : Keyspace.Accesses Slot.Untouched [key] fun ks => ks.getAs α key :=
    .read List.mem_cons_self fun _ => Slot.collection? α
  have hlive : (ks.getAs α key).2.live = ks.live := (hread.sheds ks).live
  rw [hc, Table.set_of_get?_eq h]
  exact ⟨mapError_eq_ok_iff.2 (congrArg (Except.map reply) hresult), hlive⟩

end Accesses

/-- How the reply to one command is made up of the replies to many. -/
inductive Law where
  | sum
  | last
  | list
  | popped (key : Bytes)

/-- What is listed in place of an outcome: nothing for a command that failed. -/
def listed : Except CommandError Frame → Frame
  | .ok reply => reply
  | .error _ => .nullBulk

omit [Glob.Matcher] in
theorem map_listed_ok (frames : List Frame) : (frames.map Except.ok).map listed = frames := by
  rw [List.map_map]
  exact List.map_id frames

/-- Replies to many commands, none of which has failed unless they are listed, make up one. -/
def Law.Combines (ks : Keyspace) (replies : List (Except CommandError Frame))
    (reply : Except CommandError Frame) : Law → Prop
  | .sum => ∃ counts : List Nat,
    replies = counts.map (fun n => .ok (.count n)) ∧ reply = .ok (.count counts.sum)
  | .last => ∀ last ∈ replies.getLast?, last = reply
  | .list => reply = .ok (.array (replies.map listed))
  | .popped key => ∃ frames : List Frame, replies = frames.map .ok ∧
    reply = .ok (if ks.live.get? key = none then .nullArray
      else .array (frames.filter (· ≠ .nullBulk)))

omit [Glob.Matcher] in
theorem Law.combines_last {σ ι : Type} (step : σ → ι → Frame × σ) (tell : σ → Frame)
    (htell : ∀ s i, (step s i).1 = tell (step s i).2) (ks : Keyspace) (s : σ) (items : List ι) :
    Law.last.Combines ks ((trace step s items).1.map .ok) (.ok (tell (trace step s items).2)) := by
  intro last hlast
  rw [List.getLast?_map, Option.mem_def, Option.map_eq_some_iff] at hlast
  obtain ⟨reply, hreply, rfl⟩ := hlast
  rw [getLast?_trace htell s items reply hreply]

/-- One command does what many do one after the other: it leaves the same, and fails with a wrong
type if they do; or else its reply is made up of theirs. -/
structure StandsFor (law : Law) (ks : Keyspace) (client : Client) (singles : List Command)
    (whole : Command) : Prop where
  live_eq : (execEach (ks, client) singles).2.1.live = (whole.exec ks client).2.1.live
  fails : ∀ key typeName, whole.Addresses key typeName →
    Slot.Mistyped typeName (ks.live.get? key) →
      (whole.exec ks client).1 = .error (.store .wrongType) ∧
        ∀ reply ∈ (execEach (ks, client) singles).1, reply = .error (.store .wrongType)
  combines : (∀ key typeName, whole.Addresses key typeName →
    ¬ Slot.Mistyped typeName (ks.live.get? key)) →
      law.Combines ks (execEach (ks, client) singles).1 (whole.exec ks client).1

section Keyspaces

variable {β ι : Type} {ks : Keyspace} {client : Client}

theorem StandsFor.of_steps {law : Law} {whole : Command} {single : ι → Command} {items : List ι}
    (step : Keyspace → ι → β × Keyspace) (outcome : β → Except CommandError Frame)
    (hsingle : ∀ ks i, (single i).exec ks client = (outcome (step ks i).1, (step ks i).2, client))
    (haddressed : ∀ k typeName, ¬ whole.Addresses k typeName)
    (hleft : (trace step ks items).2 = (whole.exec ks client).2.1)
    (hlaw : law.Combines ks ((trace step ks items).1.map outcome) (whole.exec ks client).1) :
    StandsFor law ks client (items.map single) whole := by
  have hstep {ks : Keyspace} {s : Keyspace × Client} (i : ι) (hs : (ks, client) = s) :
      ((single i).exec s.1 s.2).1 = outcome (step ks i).1 ∧
        ((step ks i).2, client) = ((single i).exec s.1 s.2).2 := by
    obtain rfl := hs
    rw [hsingle]
    exact ⟨rfl, rfl⟩
  obtain ⟨houtcomes, hstate⟩ : (execEach (ks, client) (items.map single)).1 =
        (trace step ks items).1.map outcome ∧
      ((trace step ks items).2, client) = (execEach (ks, client) (items.map single)).2 :=
    trace_simulates (R := fun ks s => (ks, client) = s) hstep rfl items
  refine ⟨?_, fun k typeName h => absurd h (haddressed k typeName), fun _ => ?_⟩
  · rw [← hstate, hleft]
  · rw [houtcomes]
    exact hlaw

theorem standsFor_counted (family : List Bytes → Command) {op : Keyspace → Bytes → β × Keyspace}
    {counts : β → Bool}
    (hexec : ∀ ks keys, (family keys).exec ks client =
      (.ok (.count ((ks.forEach op keys).1.countP counts)), (ks.forEach op keys).2, client))
    (haddressed : ∀ keys k typeName, ¬ (family keys).Addresses k typeName) (keys : List Bytes) :
    StandsFor .sum ks client (keys.map fun key => family [key]) (family keys) := by
  have hsum (results : List β) :
      (results.map fun result => [result].countP counts).sum = results.countP counts := by
    induction results with
    | nil => rfl
    | cons result rest ih =>
      rw [List.map_cons, List.sum_cons, ih, ← List.countP_append, List.singleton_append]
  refine .of_steps op (fun result => .ok (.count ([result].countP counts)))
    (fun ks key => hexec ks [key]) (haddressed keys) ?_ ?_
  · rw [hexec, Keyspace.forEach_eq_trace]
  · rw [hexec, Keyspace.forEach_eq_trace]
    refine ⟨(trace op ks keys).1.map fun result => [result].countP counts, ?_, ?_⟩
    · rw [List.map_map]
      rfl
    · rw [hsum]

end Keyspaces

section Families

variable [LawfulCollection α] {ι : Type} {ks : Keyspace}

/-- Commands that work on the collection under one key are followed on collections alone. -/
theorem StandsFor.of_acts {law : Law} {whole : Command} {single : ι → Command} {items : List ι}
    {act : α → Frame × α} {step : α → ι → Frame × α}
    (hwholeAt : ∀ k typeName,
      whole.Addresses k typeName ↔ k = key ∧ typeName = Collection.typeName α)
    (hsingleAt : ∀ i, (single i).Addresses key (Collection.typeName α))
    (hwhole : whole.Acts key fit act) (hsingle : ∀ i, (single i).Acts key fit fun x => step x i)
    (hfresh : ∀ {deadline x}, Slot.Fresh deadline x → fit deadline x)
    (hfit : ∀ {deadline x} i, fit deadline x → fit deadline (step x i).2)
    (hleft : ∀ x, (trace step x items).2 = (act x).2) (hks : ks.Filled)
    (hlaw : ∀ (deadline : Option Nat) (x : α), ks.live.get? key = Slot.ofCollection deadline x →
      law.Combines ks ((trace step x items).1.map .ok) (.ok (act x).1)) (client : Client) :
    StandsFor law ks client (items.map single) whole := by
  by_cases hmistyped : Slot.Mistyped (Collection.typeName α) (ks.live.get? key)
  · have haddressed := (hwholeAt key _).2 ⟨rfl, rfl⟩
    have hsingles : ∀ c ∈ items.map single, c.Addresses key (Collection.typeName α) := by
      rw [List.forall_mem_map]
      exact fun i _ => hsingleAt i
    have hfails := (haddressed.wrongType_iff ks client).2 hmistyped
    obtain ⟨hreplies, hlive⟩ := execEach_of_mistyped hsingles hks hmistyped client
    refine ⟨?_, fun _ _ _ _ => ⟨hfails, hreplies⟩, fun h => absurd hmistyped (h _ _ haddressed)⟩
    rw [hlive, (sheds_of_error hks client hfails).1.live]
  · obtain ⟨deadline, x, hx, hheld⟩ := Slot.exists_ofCollection (hks.get?_live key) hmistyped
    obtain ⟨hreply, hlive⟩ := hwhole ks client deadline x (hfresh hx) hheld
    obtain ⟨hreplies, hliveEach⟩ := execEach_of_acts hsingle hfit (hfresh hx) hheld client items
    refine ⟨?_, fun k typeName haddressed h => ?_, fun _ => ?_⟩
    · rw [hliveEach, hlive, hleft]
    · obtain ⟨rfl, rfl⟩ := (hwholeAt k typeName).1 haddressed
      exact absurd h hmistyped
    · rw [hreplies, hreply]
      exact hlaw deadline x hheld

variable (family : List ι → Command)
  (hat : ∀ items k typeName,
    (family items).Addresses k typeName ↔ k = key ∧ typeName = Collection.typeName α)
  (hks : ks.Filled)
include hat hks

/-- Commands that count the items which they change something for. -/
theorem standsFor_sum (step : α → ι → Bool × α)
    (hacts : ∀ items, (family items).Acts key fit fun x =>
      (.count (tally step x items).1, (tally step x items).2))
    (hfresh : ∀ {deadline x}, Slot.Fresh deadline x → fit deadline x)
    (hfit : ∀ {deadline x} i, fit deadline x → fit deadline (step x i).2)
    (client : Client) (items : List ι) :
    StandsFor .sum ks client (items.map fun i => family [i]) (family items) := by
  refine .of_acts (hat items) (fun i => (hat [i] _ _).2 ⟨rfl, rfl⟩) (hacts items)
    (fun i => hacts [i]) hfresh (fun i => hfit i) (fun x => ?_) hks (fun deadline x _ => ?_) client
  · rw [trace_map (fun x i => tally step x [i]) Frame.count, tally_eq_trace step x items]
  · rw [trace_map (fun x i => tally step x [i]) Frame.count, tally_eq_trace step x items]
    exact ⟨_, List.map_map, rfl⟩

theorem standsFor_added (step : α → ι → Bool × α)
    (hdoes : ∀ items, (family items).Does fun ks =>
      answer .count (ks.upsert key fun x => tally step x items))
    (hkept : ∀ x i, Collection.isEmpty (step x i).2 = true → (step x i).2 = x)
    (client : Client) (items : List ι) :
    StandsFor .sum ks client (items.map fun i => family [i]) (family items) :=
  standsFor_sum family hat hks step (fun items => acts_upsert (hdoes items)) id
    (fun i hx => hx.of_kept (hkept _ i)) client items

theorem standsFor_removed (step : α → ι → Bool × α)
    (hdoes : ∀ items, (family items).Does fun ks =>
      answer (fun removed => .count (removed.getD 0)) (ks.update key fun x => tally step x items))
    (hidle : ∀ x i, Collection.isEmpty x = true → step x i = (false, x))
    (client : Client) (items : List ι) :
    StandsFor .sum ks client (items.map fun i => family [i]) (family items) := by
  have hacts (items : List ι) := acts_removal (hdoes items)
    fun x hx => tally_of_idle (fun i => hidle x i hx) items
  exact standsFor_sum family hat hks step hacts (fun _ => trivial) (fun _ _ => trivial) client items

theorem standsFor_last {β : Type} (f : List ι → α → β × α) (reply : β → Frame) (tell : α → Frame)
    (hdoes : ∀ items, (family items).Does fun ks => answer reply (ks.upsert key (f items)))
    (htell : ∀ items x, reply (f items x).1 = tell (f items x).2)
    (hkept : ∀ x i, Collection.isEmpty (f [i] x).2 = true → (f [i] x).2 = x)
    (hf : ∀ x items, items.foldl (fun x i => (f [i] x).2) x = (f items x).2)
    (client : Client) (items : List ι) :
    StandsFor .last ks client (items.map fun i => family [i]) (family items) := by
  have hleft (x : α) :
      (trace (fun x i => (reply (f [i] x).1, (f [i] x).2)) x items).2 = (f items x).2 :=
    (snd_trace _ x items).trans (hf x items)
  refine .of_acts (hat items) (fun i => (hat [i] _ _).2 ⟨rfl, rfl⟩) (acts_upsert (hdoes items))
    (fun i => acts_upsert (hdoes [i])) id (fun i hx => hx.of_kept (hkept _ i)) hleft hks
    (fun deadline x _ => ?_) client
  rw [htell, ← hleft]
  exact Law.combines_last _ tell (fun x i => htell [i] x) ks x items

end Families

end Command
end RespStore
