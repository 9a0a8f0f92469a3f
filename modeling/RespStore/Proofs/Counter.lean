import RespStore.Proofs.Number.Canonical
import RespStore.Proofs.Unchanged

/-! Counters: an addition gives the exact sum and leaves the text of it, or fails and changes
nothing. -/
namespace RespStore
open Keyspace

/-- What a key holds counts for a number: nothing for zero, and canonical text for the integer that
it stands for if that is in the range. -/
inductive IntegerRange.Counts (r : IntegerRange) : Option Value → Int → Prop
  | absent : Counts r none 0
  | text {data : Bytes} {n : Int} (h : Decimal.Canonical data n) (hn : r.Contains n) :
      Counts r (some (.string data)) n

namespace IntegerRange

variable {r : IntegerRange} {held : Option Value} {n m : Int}

theorem signed_contains_zero (bits : Nat) : (signed bits).Contains 0 := by
  have hpos : 0 < Nat.pow 2 (bits - 1) := Nat.pow_pos (by omega)
  unfold signed Contains
  constructor
  · dsimp only
    omega
  · dsimp only
    omega

theorem unsigned_contains_zero (bits : Nat) : (unsigned bits).Contains 0 := by
  have hpos : 0 < Nat.pow 2 bits := Nat.pow_pos (by omega)
  unfold unsigned Contains
  constructor
  · dsimp only
    omega
  · dsimp only
    omega

theorem int64_contains_zero : int64.Contains 0 := signed_contains_zero 64

theorem Counts.unique (hzero : r.Contains 0) (hn : r.Counts held n) (hm : r.Counts held m) :
    n = m := by
  cases hn with
  | absent =>
    cases hm with
    | absent => rfl
  | text hn hcontains =>
    cases hm with
    | text hm hcontains' =>
      have hread := (Decimal.readCanonical?_eq_some_iff hzero).2 ⟨hn, hcontains⟩
      rw [(Decimal.readCanonical?_eq_some_iff hzero).2 ⟨hm, hcontains'⟩] at hread
      exact (Option.some.inj hread).symm

/-- Why nothing can be added to what a key holds. -/
inductive Fails (r : IntegerRange) (amount : Int) : Option Value → StoreError → Prop
  | overflow {held : Option Value} {n : Int} (h : r.Counts held n)
      (hsum : ¬ r.Contains (n + amount)) : Fails r amount held .overflow
  | notAnInteger {data : Bytes} (h : ∀ n, ¬ r.Counts (some (.string data)) n) :
      Fails r amount (some (.string data)) .notAnInteger
  | wrongType {value : Value} (h : value.typeName ≠ "string") :
      Fails r amount (some value) .wrongType

theorem Fails.not_contains (hzero : r.Contains 0) {amount : Int} {e : StoreError}
    (h : r.Fails amount held e) (hn : r.Counts held n) : ¬ r.Contains (n + amount) := by
  cases h with
  | overflow hm hsum => rwa [hn.unique hzero hm]
  | notAnInteger hnone => exact absurd hn (hnone n)
  | wrongType htype =>
    cases hn with
    | text _ _ => exact absurd rfl htype

end IntegerRange

namespace Slot

/-- What comes of adding to what is there: the sum, in canonical text under the deadline that is
there, or a failure for one of the reasons. -/
inductive Adds (r : IntegerRange) (amount : Int) (slot : Slot) :
    Except StoreError (Int × Slot) → Prop
  | sum {n : Int} (h : r.Counts (slot.map (·.value)) n) (hsum : r.Contains (n + amount)) :
      Adds r amount slot
        (.ok (n + amount, some (overwrite slot (.string (Decimal.bytes (n + amount))))))
  | fails {e : StoreError} (h : r.Fails amount (slot.map (·.value)) e) :
      Adds r amount slot (.error e)

theorem adds_incrBy {r : IntegerRange} (hzero : r.Contains 0) (amount : Int) (slot : Slot) :
    Adds r amount slot (incrBy r amount slot) := by
  have hcounts {slot : Slot} {n : Int} (h : r.Counts (slot.map (·.value)) n) :
      Adds r amount slot (if r.Contains (n + amount) then
        .ok (n + amount, some (overwrite slot (.string (Decimal.bytes (n + amount)))))
        else .error .overflow) := by
    split
    · next hsum => exact .sum h hsum
    · next hsum => exact .fails (.overflow h hsum)
  cases slot with
  | none => exact hcounts .absent
  | some e =>
    obtain ⟨value, deadline⟩ := e
    cases value with
    | string data =>
      unfold incrBy string?
      dsimp only [Option.elim]
      cases hread : Decimal.readCanonical? r data with
      | none =>
        refine .fails (.notAnInteger fun n hn => ?_)
        cases hn with
        | text hcanonical hcontains =>
          rw [(Decimal.readCanonical?_eq_some_iff hzero).2 ⟨hcanonical, hcontains⟩] at hread
          cases hread
      | some n =>
        obtain ⟨hcanonical, hcontains⟩ := (Decimal.readCanonical?_eq_some_iff hzero).1 hread
        exact hcounts (.text hcanonical hcontains)
    | _ => exact .fails (.wrongType (by simp [Value.typeName]))

end Slot

namespace Keyspace

/-- An addition to what a key holds is exact. It succeeds, unless it is refused, if the key counts
for a number and the sum is in the range; then the sum is given, and its canonical text is what the
key holds in place of what it held. If it fails nothing changes, and there is a reason. -/
structure AddsExactly (r : IntegerRange) (amount : Int) (refused : Prop) (key : Bytes)
    (ks : Keyspace) (result : Except StoreError Int) (ks' : Keyspace) : Prop where
  isOk_iff : (∃ sum, result = .ok sum) ↔
    ¬ refused ∧ ∃ n, r.Counts (ks.held key) n ∧ r.Contains (n + amount)
  of_ok : ∀ sum, result = .ok sum → r.Contains sum ∧
    (∃ n, r.Counts (ks.held key) n ∧ sum = n + amount) ∧
    ∃ text, Decimal.Canonical text sum ∧ ks'.live =
      ks.live.set key (some ⟨.string text, (ks.live.get? key).bind (·.deadline)⟩)
  of_error : ∀ e, result = .error e → ks'.live = ks.live ∧
    (refused ∧ e = .overflow ∨ ¬ refused ∧ r.Fails amount (ks.held key) e)

variable {r : IntegerRange} {key : Bytes}

theorem incrBy_addsExactly (hzero : r.Contains 0) (amount : Int) (key : Bytes) (ks : Keyspace) :
    AddsExactly r amount False key ks (ks.incrBy r key amount).1 (ks.incrBy r key amount).2 := by
  have hresult : (ks.incrBy r key amount).1 = _ := ks.tryAccess_fst key (Slot.incrBy r amount)
  have hadds := Slot.adds_incrBy hzero amount (ks.live.get? key)
  generalize hslot : Slot.incrBy r amount (ks.live.get? key) = outcome at hresult hadds
  cases hadds with
  | @sum n hn hsum =>
    have hleft := (Slot.edit_of_incrBy hslot).liveAt (ks.liveAt_get?_live key)
    obtain ⟨-, hlive⟩ := ks.tryAccess_of_ok key hslot hleft
    rw [hresult]
    refine ⟨iff_of_true ⟨_, rfl⟩ ⟨not_false, n, hn, hsum⟩, fun sum heq => ?_, nofun⟩
    cases heq
    exact ⟨hsum, ⟨n, hn, rfl⟩, _, Decimal.canonical_bytes _, hlive⟩
  | @fails e hfails =>
    have hsheds : ks.Sheds (ks.incrBy r key amount).2 := by
      refine sheds_tryAccess fun a left hok => ?_
      rw [hslot] at hok
      cases hok
    rw [hresult]
    refine ⟨iff_of_false nofun ?_, nofun, fun cause heq => ?_⟩
    · rintro ⟨-, n, hn, hsum⟩
      exact hfails.not_contains hzero hn hsum
    · cases heq
      exact ⟨hsheds.live, .inr ⟨not_false, hfails⟩⟩

namespace AddsExactly

variable {amount : Int} {refused : Prop} {ks ks' : Keyspace} {result : Except StoreError Int}

theorem counts_of_ok (h : AddsExactly r amount refused key ks result ks') {sum : Int}
    (hok : result = .ok sum) :
    ∃ n, r.Counts (ks.held key) n ∧ r.Counts (ks'.held key) (n + amount) := by
  obtain ⟨hcontains, ⟨n, hn, rfl⟩, text, htext, hlive⟩ := h.of_ok sum hok
  have hheld : ks'.held key = some (.string text) := by
    rw [held, hlive, Table.get?_set, if_pos rfl]
    rfl
  rw [hheld]
  exact ⟨n, hn, .text htext hcontains⟩

theorem held_of_error (h : AddsExactly r amount refused key ks result ks') {e : StoreError}
    (herror : result = .error e) : ks'.held key = ks.held key := by
  rw [held, (h.of_error e herror).1]
  rfl

end AddsExactly

section Runs

variable {ι ε α : Type}

/-- Steps taken in turn, each with its outcome. Between them anything may happen but to the value
under one key, which is neither written nor expires. -/
inductive Run (step : ι → Keyspace → α × Keyspace) (key : Bytes) (start : Keyspace) :
    List (ι × α) → Keyspace → Prop
  | nil : Run step key start [] start
  | take {log : List (ι × α)} {ks : Keyspace} (h : Run step key start log ks) (i : ι) :
      Run step key start (log ++ [(i, (step i ks).1)]) (step i ks).2
  | meanwhile {log : List (ι × α)} {ks ks' : Keyspace} (h : Run step key start log ks)
      (hheld : ks'.held key = ks.held key) : Run step key start log ks'

/-- What the steps that succeeded add up to. -/
def gained (amount : ι → Int) : List (ι × Except ε α) → Int
  | [] => 0
  | (i, .ok _) :: rest => amount i + gained amount rest
  | (_, .error _) :: rest => gained amount rest

/-- What was counted to begin with, and all that was gained, is what is counted. What counts for no
number stays, and no step succeeds. -/
structure Accumulates (r : IntegerRange) (amount : ι → Int) (key : Bytes) (start : Keyspace)
    (log : List (ι × Except ε α)) (ks : Keyspace) : Prop where
  counts : ∀ n, r.Counts (start.held key) n → r.Counts (ks.held key) (n + gained amount log)
  stuck : (∀ n, ¬ r.Counts (start.held key) n) →
    ks.held key = start.held key ∧ ∀ x ∈ log, x.2.isOk = false

theorem gained_append (amount : ι → Int) (log log' : List (ι × Except ε α)) :
    gained amount (log ++ log') = gained amount log + gained amount log' := by
  induction log with
  | nil => exact (Int.zero_add _).symm
  | cons x rest ih =>
    obtain ⟨i, e | a⟩ := x
    · exact ih
    · rw [List.cons_append, gained, gained, ih, Int.add_assoc]

/-- By induction on the run: a step that succeeds adds its amount to what is counted, and all else
leaves the value. -/
theorem Run.accumulates (hzero : r.Contains 0) {amount : ι → Int}
    {step : ι → Keyspace → Except ε α × Keyspace}
    (hok : ∀ {i ks a}, (step i ks).1 = .ok a →
      ∃ n, r.Counts (ks.held key) n ∧ r.Counts ((step i ks).2.held key) (n + amount i))
    (herror : ∀ {i ks e}, (step i ks).1 = .error e → (step i ks).2.held key = ks.held key)
    {start ks : Keyspace} {log : List (ι × Except ε α)} (h : Run step key start log ks) :
    Accumulates r amount key start log ks := by
  induction h with
  | nil =>
    refine ⟨fun n hn => ?_, fun _ => ⟨rfl, nofun⟩⟩
    rwa [gained, Int.add_zero]
  | @take log ks _ i ih =>
    cases houtcome : (step i ks).1 with
    | ok a =>
      obtain ⟨m, hm, hleft⟩ := hok houtcome
      constructor
      · intro n hn
        rw [hm.unique hzero (ih.counts n hn)] at hleft
        rw [gained_append, gained, gained, Int.add_zero, ← Int.add_assoc]
        exact hleft
      · intro hnone
        -- No step succeeds where nothing is counted.
        have hsame := (ih.stuck hnone).1
        rw [hsame] at hm
        exact absurd hm (hnone m)
    | error e =>
      have hheld := herror houtcome
      constructor
      · intro n hn
        rw [hheld, gained_append, gained, gained, Int.add_zero]
        exact ih.counts n hn
      · intro hnone
        obtain ⟨hsame, hlog⟩ := ih.stuck hnone
        refine ⟨hheld.trans hsame, fun x hx => ?_⟩
        rcases List.mem_append.1 hx with hx | hx
        · exact hlog x hx
        · rw [List.mem_singleton.1 hx]
          rfl
  | meanwhile _ hheld ih =>
    constructor
    · intro n hn
      rw [hheld]
      exact ih.counts n hn
    · intro hnone
      obtain ⟨hsame, hlog⟩ := ih.stuck hnone
      exact ⟨hheld.trans hsame, hlog⟩

end Runs
end Keyspace

inductive Counting where
  | incr
  | decr
  | incrby (increment : Int64)
  | decrby (decrement : Int64)

namespace Counting

def command (key : Bytes) : Counting → Command
  | .incr => .strings (.incr key)
  | .decr => .strings (.decr key)
  | .incrby increment => .strings (.incrby key increment)
  | .decrby decrement => .strings (.decrby key decrement)

def amount : Counting → Int
  | .incr => 1
  | .decr => -1
  | .incrby increment => increment.toInt
  | .decrby decrement => -decrement.toInt

/-- There is no integer of 64 bits that is the least of them negated. -/
def Refused (op : Counting) : Prop := op = .decrby Int64.minValue

def take [Glob.Matcher] (key : Bytes) (client : Client) (op : Counting) (ks : Keyspace) :
    Except CommandError Frame × Keyspace :=
  (((op.command key).exec ks client).1, ((op.command key).exec ks client).2.1)

def reply (result : Except StoreError Int) : Except CommandError Frame :=
  (result.map fun sum => .integer (Int64.ofInt sum)).mapError .store

variable [Glob.Matcher]

theorem take_eq_of_not_refused (key : Bytes) (client : Client) {op : Counting}
    (h : ¬ op.Refused) (ks : Keyspace) : op.take key client ks =
      (reply (ks.incrBy .int64 key op.amount).1, (ks.incrBy .int64 key op.amount).2) := by
  cases op with
  | decrby decrement =>
    have hne : decrement ≠ Int64.minValue := fun heq => h (congrArg Counting.decrby heq)
    have hexec : (StringCommand.decrby key decrement).exec ks =
        StringCommand.incrementBy ks key (-decrement.toInt) := if_neg hne
    show (((StringCommand.decrby key decrement).exec ks).1.mapError _,
      ((StringCommand.decrby key decrement).exec ks).2) = _
    rw [hexec]
    rfl
  | _ => rfl

/-- Each command replies with the exact sum, which an integer reply can hold, or fails. -/
theorem take_addsExactly (key : Bytes) (client : Client) (op : Counting) (ks : Keyspace) :
    ∃ result, (op.take key client ks).1 = reply result ∧
      (∀ sum, result = .ok sum → (Int64.ofInt sum).toInt = sum) ∧
      AddsExactly .int64 op.amount op.Refused key ks result (op.take key client ks).2 := by
  by_cases hrefused : op.Refused
  · subst hrefused
    refine ⟨.error .overflow, rfl, nofun, iff_of_false nofun ?_, nofun, fun e heq => ?_⟩
    · exact fun h => h.1 rfl
    · cases heq
      exact ⟨rfl, .inl ⟨rfl, rfl⟩⟩
  · rw [take_eq_of_not_refused key client hrefused]
    have hadds := incrBy_addsExactly IntegerRange.int64_contains_zero op.amount key ks
    refine ⟨_, rfl, fun sum hsum => ?_, ?_⟩
    · obtain ⟨hlow, hhigh⟩ := Decimal.int64_contains_iff.1 (hadds.of_ok sum hsum).1
      exact Int64.toInt_ofInt_of_le hlow (by omega)
    · simpa only [hrefused] using hadds

end Counting

/-- Counters are exact, as clients see them and over integers of any size. Each addition gives the
exact sum or changes nothing, so what is counted is what there was and all that was gained. -/
theorem counters_exact [Glob.Matcher] (key : Bytes) (client : Client) :
    (∀ (op : Counting) (ks : Keyspace), ∃ result,
      ((op.command key).exec ks client).1 = Counting.reply result ∧
      (∀ sum, result = .ok sum → (Int64.ofInt sum).toInt = sum) ∧
      AddsExactly .int64 op.amount op.Refused key ks result
        ((op.command key).exec ks client).2.1) ∧
    (∀ start log ks, Run (Counting.take key client) key start log ks →
      Accumulates .int64 Counting.amount key start log ks) ∧
    ∀ bits, ∀ r ∈ [IntegerRange.signed bits, .unsigned bits],
      (∀ amount ks, AddsExactly r amount False key ks (ks.incrBy r key amount).1
        (ks.incrBy r key amount).2) ∧
      ∀ start log ks, Run (fun amount ks => ks.incrBy r key amount) key start log ks →
        Accumulates r id key start log ks := by
  refine ⟨fun op ks => op.take_addsExactly key client ks, fun start log ks hrun => ?_, ?_⟩
  · refine hrun.accumulates IntegerRange.int64_contains_zero ?_ ?_
    · intro op ks reply hreply
      obtain ⟨result, heq, -, hadds⟩ := op.take_addsExactly key client ks
      rw [heq] at hreply
      obtain ⟨sum, hsum, -⟩ := map_eq_ok_iff.1 (mapError_eq_ok_iff.1 hreply)
      exact hadds.counts_of_ok hsum
    · intro op ks e hreply
      obtain ⟨result, heq, -, hadds⟩ := op.take_addsExactly key client ks
      rw [heq] at hreply
      obtain ⟨cause, hcause, -⟩ := mapError_eq_error_iff.1 hreply
      exact hadds.held_of_error (map_eq_error_iff.1 hcause)
  · intro bits r hr
    have hzero : r.Contains 0 := by
      simp only [List.mem_cons, List.not_mem_nil, or_false] at hr
      rcases hr with rfl | rfl
      · exact IntegerRange.signed_contains_zero bits
      · exact IntegerRange.unsigned_contains_zero bits
    have hadds (amount : Int) (ks : Keyspace) := incrBy_addsExactly hzero amount key ks
    refine ⟨hadds, fun start log ks hrun => hrun.accumulates hzero ?_ ?_⟩
    · exact fun hok => (hadds _ _).counts_of_ok hok
    · exact fun herror => (hadds _ _).held_of_error herror

/-- A counter two below its bound gets there and no further, while another key is set and time
passes; then it is taken down. -/
theorem counter_up_to_its_bound :
    let client : Client := { id := 1 }
    let text (n : String) : Slot := some ⟨.string (Bytes.ofString n), some 5000⟩
    let start : Keyspace := { entries := Table.empty.set [99] (text "9223372036854775805") }
    let take := Counting.take [99] client
    let full := (take .incr (take (.incrby 2) start).2).2
    let later := ((Command.strings (.set [100] [120] {})).exec full client).2.1.advance 1000
    let down := (take (.decrby 10) (take (.decrby Int64.minValue) later).2).2
    ∃ log, Run take [99] start log down ∧
      log.map (·.2) = [.ok (.integer Int64.maxValue), .error (.store .overflow),
        .error (.store .overflow), .ok (.integer (Int64.maxValue - 10))] ∧
      IntegerRange.int64.Counts (start.held [99]) 9223372036854775805 ∧
      IntegerRange.int64.Counts (down.held [99]) (9223372036854775805 + (2 + -10)) ∧
      down.live.get? [99] = text "9223372036854775797" := by
  intro client text start take full later down
  have hheld : later.held [99] = full.held [99] := by decide +kernel
  have hrun := (((((Run.nil : Run take [99] start [] start).take (.incrby 2)).take .incr).meanwhile
    hheld).take (.decrby Int64.minValue)).take (.decrby 10)
  have hstart : IntegerRange.int64.Counts (start.held [99]) 9223372036854775805 :=
    .text (Decimal.canonical_iff.2 (by decide +kernel)) (by decide)
  have hdown := ((counters_exact [99] client).2.1 start _ down hrun).counts _ hstart
  refine ⟨_, hrun, by decide +kernel, hstart, ?_, by decide +kernel⟩
  rwa [show gained Counting.amount _ = 2 + -10 by decide +kernel] at hdown

end RespStore
