import RespStore.Proofs.Request.Written
import RespStore.Proofs.Turns
import RespStore.Proofs.Variadic.Commands

/-! Synonymous commands. Either side is a function of what is live under the key, and the two
functions agree on every slot. -/
namespace RespStore
open Keyspace

/-- What a client sends: a request, and what it sends once that is replied to. -/
inductive Script where
  | done
  | send (request : Frame) (next : Except CommandError Frame → Script)

namespace Script

def once (request : Frame) : Script := .send request fun _ => .done

variable [Glob.Matcher]

def run : Script → Keyspace × Client →
    Option (List (Except CommandError Frame) × Keyspace × Client)
  | .done, s => some ([], s)
  | .send request next, s =>
    match Command.ofFrame request with
    | .error _ => none
    | .ok c =>
      let (reply, s) := c.exec s.1 s.2
      ((next reply).run s).map fun (replies, s) => (reply :: replies, s)

/-- What a script makes of what is live under a key. -/
def Turns (key : Bytes) (script : Script)
    (f : Nat → Slot → List (Except StoreError Frame) × Slot) : Prop :=
  ∀ (ks : Keyspace) (client : Client), ∃ ks' : Keyspace,
    script.run (ks, client) =
        some ((f ks.now (ks.live.get? key)).1.map (·.mapError .store), ks', client) ∧
      ks'.live = ks.live.set key (f ks.now (ks.live.get? key)).2

/-- Replies that follow a law, or one failure on either side, and the same slot left. -/
inductive Corresponds (law : List Frame → List Frame → Prop) :
    List (Except StoreError Frame) × Slot → List (Except StoreError Frame) × Slot → Prop
  | replies {frames frames' : List Frame} (h : law frames frames') (left : Slot) :
      Corresponds law (frames.map .ok, left) (frames'.map .ok, left)
  | failure (e : StoreError) (left : Slot) :
      Corresponds law ([.error e], left) ([.error e], left)

/-- Replies that follow a law, or one failure on either side, and the same left live. -/
inductive Agree (law : List Frame → List Frame → Prop) :
    Option (List (Except CommandError Frame) × Keyspace × Client) →
      Option (List (Except CommandError Frame) × Keyspace × Client) → Prop
  | replies {frames frames' : List Frame} (h : law frames frames') {ks ks' : Keyspace}
      (hlive : ks.live = ks'.live) (client : Client) :
      Agree law (some (frames.map .ok, ks, client)) (some (frames'.map .ok, ks', client))
  | failure (e : StoreError) {ks ks' : Keyspace} (hlive : ks.live = ks'.live) (client : Client) :
      Agree law (some ([.error (.store e)], ks, client)) (some ([.error (.store e)], ks', client))

variable {key : Bytes} {request : Frame} {c : Command} {op : Keyspace → Outcome}
  {script script' : Script} {f : Nat → Slot → List (Except StoreError Frame) × Slot}
  {g : Nat → Slot → Except StoreError Frame × Slot} {law : List Frame → List Frame → Prop}

theorem done_turns : done.Turns key fun _ slot => ([], slot) := fun ks _ =>
  ⟨ks, rfl, (Table.set_of_get?_eq rfl).symm⟩

theorem send_turns {next : Except CommandError Frame → Script}
    {h : Except StoreError Frame → Nat → Slot → List (Except StoreError Frame) × Slot}
    (hread : Command.ofFrame request = .ok c) (hdoes : c.Does op) (hop : Keyspace.Turns key op g)
    (hnext : ∀ reply, (next (reply.mapError .store)).Turns key (h reply)) :
    (send request next).Turns key fun now slot =>
      ((g now slot).1 :: (h (g now slot).1 now (g now slot).2).1,
        (h (g now slot).1 now (g now slot).2).2) := by
  intro ks client
  obtain ⟨ks', hrun, hlive⟩ := hnext (op ks).1 (op ks).2 client
  rw [hop.now, hop.get?_live, hop.result] at hrun hlive
  refine ⟨ks', ?_, ?_⟩
  · simp only [run, hread, hdoes ks client, hop.result, hrun, Option.map_some, List.map_cons]
  · rw [hlive, hop.live, Table.set_set]

theorem once_turns (hread : Command.ofFrame request = .ok c) (hdoes : c.Does op)
    (hop : Keyspace.Turns key op g) :
    (once request).Turns key fun now slot => ([(g now slot).1], (g now slot).2) :=
  send_turns (h := fun _ _ slot => ([], slot)) hread hdoes hop fun _ => done_turns

theorem Turns.congr {f' : Nat → Slot → List (Except StoreError Frame) × Slot}
    (h : script.Turns key f) (hf : ∀ now slot, f now slot = f' now slot) : script.Turns key f' := by
  have heq : f = f' := funext fun now => funext (hf now)
  rwa [← heq]

theorem sendBoth_turns {later : Script}
    {h : Nat → Slot → List (Except StoreError Frame) × Slot}
    (hread : Command.ofFrame request = .ok c) (hdoes : c.Does op) (hop : Keyspace.Turns key op g)
    (hlater : later.Turns key h) : (send request fun _ => later).Turns key fun now slot =>
      ((g now slot).1 :: (h now (g now slot).2).1, (h now (g now slot).2).2) :=
  send_turns (h := fun _ => h) hread hdoes hop fun _ => hlater

theorem agree_of_turns {f' : Nat → Slot → List (Except StoreError Frame) × Slot}
    (hf : script.Turns key f) (hf' : script'.Turns key f')
    (h : ∀ now slot, Corresponds law (f now slot) (f' now slot)) (s : Keyspace × Client) :
    Agree law (script.run s) (script'.run s) := by
  obtain ⟨ks, client⟩ := s
  obtain ⟨left, hrun, hlive⟩ := hf ks client
  obtain ⟨left', hrun', hlive'⟩ := hf' ks client
  have hslot := h ks.now (ks.live.get? key)
  rw [hrun, hrun']
  generalize f ks.now (ks.live.get? key) = turned at *
  generalize f' ks.now (ks.live.get? key) = turned' at *
  cases hslot with
  | @replies frames frames' h slot =>
    simp only [List.map_map]
    exact .replies h (hlive.trans hlive'.symm) client
  | failure e slot => exact .failure e (hlive.trans hlive'.symm) client

end Script

open Command Script RespStore.Frame

/-- The ways to set a string that is to expire after some seconds. -/
inductive SetsFor (key value : Bytes) (seconds : Int) : Script → Prop
  | setex : SetsFor key value seconds
      (once (request "SETEX" [key, Decimal.bytes seconds, value]))
  | psetex : SetsFor key value seconds
      (once (request "PSETEX" [key, Decimal.bytes (1000 * seconds), value]))
  | ex : SetsFor key value seconds
      (once (request "SET" [key, value, Bytes.ofString "EX", Decimal.bytes seconds]))
  | px : SetsFor key value seconds
      (once (request "SET" [key, value, Bytes.ofString "PX", Decimal.bytes (1000 * seconds)]))
  | expire : SetsFor key value seconds
      (send (request "SET" [key, value]) fun _ =>
        once (request "EXPIRE" [key, Decimal.bytes seconds]))

def delIfString (key : Bytes) : Except CommandError Frame → Script
  | .ok (.bulk _) => once (request "DEL" [key])
  | _ => done

/-- The replies of one request or two that have set a string and its deadline. -/
def AllSet (replies : List Frame) : Prop := replies = [.ok] ∨ replies = [.ok, .integer 1]

/-- A flag, and what is replied in its place to a write under a condition. -/
def WrittenOrNot (replies replies' : List Frame) : Prop :=
  replies = [.integer 1] ∧ replies' = [.ok] ∨ replies = [.integer 0] ∧ replies' = [.nullBulk]

/-- A string, beside which the second script removes one key, or none. -/
def TakenOrNot (replies replies' : List Frame) : Prop :=
  (∃ data, replies = [.bulk data] ∧ replies' = [.bulk data, .integer 1]) ∨
    replies = [.nullBulk] ∧ replies' = [.nullBulk]

/-- An element beside its key, and the element alone, or none. -/
def PoppedOrNot (key : Bytes) (replies replies' : List Frame) : Prop :=
  (∃ data, replies = [.bulkArray [key, data]] ∧ replies' = [.bulk data]) ∨
    replies = [.nullArray] ∧ replies' = [.nullBulk]

section
variable [Glob.Matcher]

theorem expire_turns (key : Bytes) (n : Int64) :
    (once (request "EXPIRE" [key, Decimal.bytes n.toInt])).Turns key fun now slot =>
      ([.ok (.flag (KeyCommand.expireSlot (KeyCommand.secondsToMillis n) now slot).1)],
        (KeyCommand.expireSlot (KeyCommand.secondsToMillis n) now slot).2) := by
  have hread : ofFrame (request "EXPIRE" [key, Decimal.bytes n.toInt]) =
      .ok (.keys (.expire key n)) := ofFrame_numbered key KeyCommand.expire rfl rfl n
  exact once_turns hread (fun _ _ => rfl)
    ((KeyCommand.expireAfter_turns key _).map fun applied => Except.ok (Frame.flag applied))

/-- The deadline that a string is given once it is set is the one that it could be set under. -/
theorem setThenExpire_turns {key value : Bytes} {n : Int64} (hpos : 1 ≤ n.toInt)
    (hmax : 1000 * n.toInt ≤ 2 ^ 63 - 1) :
    (send (request "SET" [key, value]) fun _ =>
      once (request "EXPIRE" [key, Decimal.bytes n.toInt])).Turns key fun now _ =>
        ([.ok .ok, .ok (.integer 1)],
          some ⟨.string value, deadlineAfter now (1000 * n.toInt).toNat⟩) := by
  have hread : ofFrame (request "SET" [key, value]) = .ok (.strings (.set key value {})) :=
    ofFrame_set key value rfl
  have hplain := StringCommand.setWith_turns (o := {}) nofun key value
  have hboth := sendBoth_turns hread (fun _ _ => rfl) hplain (expire_turns key n)
  have hmillis : KeyCommand.secondsToMillis n = 1000 * n.toInt := by
    rw [KeyCommand.secondsToMillis_eq]
    omega
  rw [hmillis] at hboth
  refine hboth.congr fun now slot => ?_
  have hnot : ¬ 1000 * n.toInt ≤ 0 := by omega
  simp only [KeyCommand.expireSlot, hnot, if_false]
  rfl

theorem SetsFor.turns {key value : Bytes} {seconds : Int} {script : Script} (hpos : 1 ≤ seconds)
    (hmax : 1000 * seconds ≤ 2 ^ 63 - 1) (h : SetsFor key value seconds script) :
    ∃ frames, AllSet frames ∧ script.Turns key fun now _ =>
      (frames.map .ok, some ⟨.string value, deadlineAfter now (1000 * seconds).toNat⟩) := by
  obtain ⟨n, rfl⟩ := Decimal.exists_int64 (n := seconds) (by omega) (by omega)
  obtain ⟨m, hm⟩ := Decimal.exists_int64 (n := 1000 * n.toInt) (by omega) hmax
  have httl : 0 < (1000 * n.toInt).toNat := by omega
  have hput := (StringCommand.setWithTtl_turns httl key value).map
    fun _ => (Except.ok Frame.ok : Except StoreError Frame)
  have htimed : SetOptions.WellTimed { expiry := some (.ttl (1000 * n.toInt).toNat) } := by
    intro ttl hmem
    cases hmem
    exact httl
  have hset := StringCommand.setWith_turns htimed key value
  cases h with
  | setex =>
    have hread : ofFrame (request "SETEX" [key, Decimal.bytes n.toInt, value]) =
        .ok (.strings (.setex key (1000 * n.toInt).toNat value)) :=
      ofFrame_timed key value .setex rfl rfl (Reader.ttlOf_eq_ok_iff.2 (by omega))
    exact ⟨[.ok], .inl rfl, once_turns hread (fun _ _ => rfl) hput⟩
  | psetex =>
    have hread : ofFrame (request "PSETEX" [key, Decimal.bytes m.toInt, value]) =
        .ok (.strings (.psetex key (1000 * n.toInt).toNat value)) :=
      ofFrame_timed key value .psetex rfl rfl (Reader.ttlOf_eq_ok_iff.2 (by omega))
    rw [hm] at hread
    exact ⟨[.ok], .inl rfl, once_turns hread (fun _ _ => rfl) hput⟩
  | ex =>
    have hread := ofFrame_set_ex key value hpos hmax
    exact ⟨[.ok], .inl rfl, once_turns hread (fun _ _ => rfl) hset⟩
  | px =>
    have hread := ofFrame_set_px key value (n := m) (by omega)
    rw [hm] at hread
    exact ⟨[.ok], .inl rfl, once_turns hread (fun _ _ => rfl) hset⟩
  | expire => exact ⟨[.ok, .integer 1], .inr rfl, setThenExpire_turns hpos hmax⟩

end

/-- Scripts that stand for each other, and how the replies to them correspond. -/
inductive Synonyms : Script → Script → (List Frame → List Frame → Prop) → Prop
  | sets {key value : Bytes} {seconds : Int} (hpos : 1 ≤ seconds)
      (hmax : 1000 * seconds ≤ 2 ^ 63 - 1) {script script' : Script}
      (h : SetsFor key value seconds script) (h' : SetsFor key value seconds script') :
      Synonyms script script' fun replies replies' => AllSet replies ∧ AllSet replies'
  | getset (key value : Bytes) : Synonyms (once (request "GETSET" [key, value]))
      (once (request "SET" [key, value, Bytes.ofString "GET"])) (· = ·)
  | setnx (key value : Bytes) : Synonyms (once (request "SETNX" [key, value]))
      (once (request "SET" [key, value, Bytes.ofString "NX"])) WrittenOrNot
  | expire (key : Bytes) {n : Int} (hmin : -2 ^ 63 ≤ n) (hn : n ≤ 0) :
      Synonyms (once (request "EXPIRE" [key, Decimal.bytes n]))
        (once (request "DEL" [key])) (· = ·)
  | pexpire (key : Bytes) {n : Int} (hmin : -2 ^ 63 ≤ n) (hn : n ≤ 0) :
      Synonyms (once (request "PEXPIRE" [key, Decimal.bytes n]))
        (once (request "DEL" [key])) (· = ·)
  | getdel (key : Bytes) : Synonyms (once (request "GETDEL" [key]))
      (send (request "GET" [key]) (delIfString key)) TakenOrNot
  | incr (key : Bytes) : Synonyms (once (request "INCR" [key]))
      (once (request "INCRBY" [key, Decimal.bytes 1])) (· = ·)
  | decr (key : Bytes) : Synonyms (once (request "DECR" [key]))
      (once (request "INCRBY" [key, Decimal.bytes (-1)])) (· = ·)
  | decrby (key : Bytes) {n : Int} (hmin : -2 ^ 63 < n) (hmax : n ≤ 2 ^ 63 - 1) :
      Synonyms (once (request "DECRBY" [key, Decimal.bytes n]))
        (once (request "INCRBY" [key, Decimal.bytes (-n)])) (· = ·)
  | hmset (key : Bytes) {bindings : List (Bytes × Bytes)} (h : bindings ≠ []) :
      Synonyms (once (request "HMSET" (key :: bindings.flatMap fun b => [b.1, b.2])))
        (once (request "HSET" (key :: bindings.flatMap fun b => [b.1, b.2])))
        fun replies replies' => replies = [.ok] ∧ ∃ n, replies' = [.count n]
  | brpop (key : Bytes) {timeout : Bytes} {nanos : Nat}
      (h : ListCommand.timeoutOf timeout = .ok nanos) :
      Synonyms (once (request "BRPOP" [key, timeout])) (once (request "RPOP" [key]))
        (PoppedOrNot key)

namespace Synonyms

variable {key : Bytes} {law : List Frame → List Frame → Prop}

theorem corresponds_map {α : Type} {r : Except StoreError α} {f g : α → Frame} (left : Slot)
    (h : ∀ a, r = .ok a → law [f a] [g a]) :
    Corresponds law ([r.map f], left) ([r.map g], left) := by
  cases r with
  | error e => exact .failure e left
  | ok a => exact .replies (h a rfl) left

variable [Glob.Matcher]

theorem getset_agree (key value : Bytes) (s : Keyspace × Client) :
    Agree (· = ·) ((once (request "GETSET" [key, value])).run s)
      ((once (request "SET" [key, value, Bytes.ofString "GET"])).run s) := by
  have hgetset : ofFrame (request "GETSET" [key, value]) =
      .ok (.strings (.getset key value)) := rfl
  have hset := ofFrame_set_get key value
  have hgot := (StringCommand.getset_turns key value).answer .optionalBulk
  have hwritten := StringCommand.setWith_turns (o := { get := true }) nofun key value
  refine agree_of_turns (once_turns hgetset (fun _ _ => rfl) hgot)
    (once_turns hset (fun _ _ => rfl) hwritten) (fun now slot => ?_) s
  simp only [Accesses.tried, StringCommand.getAndSet, StringCommand.setSlot, StringCommand.askedFor,
    if_true]
  cases Slot.string? slot with
  | error e => exact .failure e slot
  | ok found =>
    have hsame : [Frame.optionalBulk found] = [.optionalBulk found] := rfl
    exact .replies hsame _

theorem setnx_agree (key value : Bytes) (s : Keyspace × Client) :
    Agree WrittenOrNot ((once (request "SETNX" [key, value])).run s)
      ((once (request "SET" [key, value, Bytes.ofString "NX"])).run s) := by
  have hsetnx : ofFrame (request "SETNX" [key, value]) =
      .ok (.strings (.setnx key value)) := rfl
  have hset := ofFrame_set_nx key value
  have hflag := (StringCommand.setnx_turns key value).map
    fun written => (Except.ok (Frame.flag written) : Except StoreError Frame)
  have hwritten := StringCommand.setWith_turns (o := { condition := some .ifAbsent }) nofun key value
  refine agree_of_turns (once_turns hsetnx (fun _ _ => rfl) hflag)
    (once_turns hset (fun _ _ => rfl) hwritten) (fun now slot => ?_) s
  cases slot with
  | none =>
    have hlaw : WrittenOrNot [.integer 1] [.ok] := .inl ⟨rfl, rfl⟩
    exact .replies hlaw (some ⟨.string value, none⟩)
  | some e =>
    have hlaw : WrittenOrNot [.integer 0] [.nullBulk] := .inr ⟨rfl, rfl⟩
    exact .replies hlaw (some e)

theorem expire_agree {c : Command} {request : Frame} {millis : Int} (hn : millis ≤ 0)
    (hread : Command.ofFrame request = .ok c)
    (hdoes : c.Does fun ks => (.ok (.flag (KeyCommand.expireAfter ks key millis).1),
      (KeyCommand.expireAfter ks key millis).2)) (s : Keyspace × Client) :
    Agree (· = ·) ((once request).run s) ((once (.request "DEL" [key])).run s) := by
  have hdel : Command.ofFrame (.request "DEL" [key]) = .ok (.keys (.del [key])) := rfl
  have hexpired := (KeyCommand.expireAfter_turns key millis).map
    fun applied => (Except.ok (Frame.flag applied) : Except StoreError Frame)
  have hremoved := (KeyCommand.del_turns key).map
    fun reply => (Except.ok reply : Except StoreError Frame)
  refine agree_of_turns (once_turns hread hdoes hexpired)
    (once_turns hdel (fun _ _ => rfl) hremoved) (fun now slot => ?_) s
  rw [KeyCommand.expireSlot, if_pos hn]
  have hsame : [Frame.flag slot.isSome] = [.flag slot.isSome] := rfl
  exact .replies hsame none

def delIfStringSlot : Except StoreError Frame → Slot → List (Except StoreError Frame) × Slot
  | .ok (.bulk _), slot => ([.ok (.flag slot.isSome)], none)
  | _, slot => ([], slot)

theorem delIfString_turns (key : Bytes) (reply : Except StoreError Frame) :
    (delIfString key (reply.mapError .store)).Turns key fun _ => delIfStringSlot reply := by
  have hdel : ofFrame (request "DEL" [key]) = .ok (.keys (.del [key])) := rfl
  have hremoved := once_turns hdel (fun _ _ => rfl) ((KeyCommand.del_turns key).map
    fun reply => (Except.ok reply : Except StoreError Frame))
  cases reply with
  | error e => exact done_turns
  | ok frame =>
    cases frame with
    | bulk data => exact hremoved
    | _ => exact done_turns

theorem getdel_agree (key : Bytes) (s : Keyspace × Client) :
    Agree TakenOrNot ((once (request "GETDEL" [key])).run s)
      ((send (request "GET" [key]) (delIfString key)).run s) := by
  have hgetdel : ofFrame (request "GETDEL" [key]) = .ok (.strings (.getdel key)) := rfl
  have hget : ofFrame (request "GET" [key]) = .ok (.strings (.get key)) := rfl
  have htaken := once_turns hgetdel (fun _ _ => rfl)
    ((StringCommand.getdel_turns key).answer .optionalBulk)
  have hread := send_turns hget (fun _ _ => rfl)
    ((StringCommand.getString_turns key).answer .optionalBulk) (delIfString_turns key)
  refine agree_of_turns htaken hread (fun now slot => ?_) s
  simp only [Accesses.tried, StringCommand.getAndDelete]
  cases hfound : Slot.string? slot with
  | error e => exact .failure e slot
  | ok found =>
    cases found with
    | none =>
      have hlaw : TakenOrNot [.nullBulk] [.nullBulk] := .inr ⟨rfl, rfl⟩
      exact .replies hlaw slot
    | some data =>
      have hlaw : TakenOrNot [.bulk data] [.bulk data, .integer 1] := .inl ⟨data, rfl, rfl⟩
      cases slot with
      | none => cases hfound
      | some e => exact .replies hlaw none

theorem incrementBy_agree {c : Command} {request : Frame} {n : Int} {m : Int64}
    (hread : ofFrame request = .ok c) (hdoes : c.Does fun ks => StringCommand.incrementBy ks key n)
    (hm : m.toInt = n) (s : Keyspace × Client) :
    Agree (· = ·) ((once request).run s)
      ((once (.request "INCRBY" [key, Decimal.bytes n])).run s) := by
  subst hm
  have hincrby : ofFrame (.request "INCRBY" [key, Decimal.bytes m.toInt]) =
      .ok (.strings (.incrby key m)) := ofFrame_numbered key StringCommand.incrby rfl rfl m
  have hadded := (StringCommand.incrementBy_turns key m.toInt).answer
    fun sum => .integer (Int64.ofInt sum)
  exact agree_of_turns (once_turns hread hdoes hadded) (once_turns hincrby (fun _ _ => rfl) hadded)
    (fun now slot => corresponds_map _ fun _ _ => rfl) s

theorem decrby_does {n : Int64} (hmin : -2 ^ 63 < n.toInt) : (Command.strings (.decrby key n)).Does
    fun ks => StringCommand.incrementBy ks key (-n.toInt) := by
  intro ks client
  have hne : n ≠ Int64.minValue := by
    rintro rfl
    exact absurd hmin (by decide)
  simp only [Command.exec, StringCommand.exec, hne, if_false]
  rfl

theorem hmset_agree (key : Bytes) {bindings : List (Bytes × Bytes)} (h : bindings ≠ [])
    (s : Keyspace × Client) :
    Agree (fun replies replies' => replies = [.ok] ∧ ∃ n, replies' = [.count n])
      ((once (request "HMSET" (key :: bindings.flatMap fun b => [b.1, b.2]))).run s)
      ((once (request "HSET" (key :: bindings.flatMap fun b => [b.1, b.2]))).run s) := by
  have hhmset : ofFrame (request "HMSET" (key :: bindings.flatMap fun b => [b.1, b.2])) =
      .ok (.hashes (.hmset key bindings)) := ofFrame_paired key HashCommand.hmset rfl rfl h
  have hhset : ofFrame (request "HSET" (key :: bindings.flatMap fun b => [b.1, b.2])) =
      .ok (.hashes (.hset key bindings)) := ofFrame_paired key HashCommand.hset rfl rfl h
  have hbound := Turns.upsert key fun h => tally HashCommand.setField h bindings
  exact agree_of_turns (once_turns hhmset (fun _ _ => rfl) (hbound.answer fun _ => .ok))
    (once_turns hhset (fun _ _ => rfl) (hbound.answer .count))
    (fun now slot => corresponds_map _ fun n _ => ⟨rfl, n, rfl⟩) s

def attemptReply (key : Bytes) : Option (List Bytes) → Frame
  | some [data] => .bulkArray [key, data]
  | _ => .nullArray

omit [Glob.Matcher] in
theorem popFirst_single (ks : Keyspace) (key : Bytes) : ListCommand.popFirst ks [key] =
    answer (attemptReply key) (ks.update key (ListCommand.popTail 1)) := by
  rw [ListCommand.popFirst_cons]
  unfold answer
  generalize (ks.update key (ListCommand.popTail 1)).1 = popped
  rcases popped with e | _ | _ | ⟨data, _ | _⟩ <;> rfl

omit [Glob.Matcher] in
theorem length_popped_le {slot : Slot} {values : List Bytes}
    (h : (Accesses.tried (Slot.update (ListCommand.popTail 1)) slot).1 = .ok (some values)) :
    values.length ≤ 1 := by
  unfold Accesses.tried Slot.update at h
  cases hfound : Slot.collection? (List Bytes) slot with
  | error e =>
    rw [hfound] at h
    cases h
  | ok found =>
    rw [hfound] at h
    cases found with
    | none => cases h
    | some items =>
      cases h
      exact ListCommand.popTail_oneByOne.length_one items

/-- One attempt to take an element under one key is a pop. -/
theorem brpop_agree (key : Bytes) {timeout : Bytes} {nanos : Nat}
    (h : ListCommand.timeoutOf timeout = .ok nanos) (s : Keyspace × Client) :
    Agree (PoppedOrNot key) ((once (request "BRPOP" [key, timeout])).run s)
      ((once (request "RPOP" [key])).run s) := by
  have hbrpop := ofFrame_brpop key h
  have hrpop : ofFrame (request "RPOP" [key]) = .ok (.lists (.rpop key none)) := rfl
  have hpop := Turns.update key (ListCommand.popTail 1)
  have hattempt : (Command.lists (.brpop [key] nanos)).Does fun ks =>
      answer (attemptReply key) (ks.update key (ListCommand.popTail 1)) := by
    intro ks client
    dsimp only
    rw [← popFirst_single]
    rfl
  refine agree_of_turns (once_turns hbrpop hattempt (hpop.answer _))
    (once_turns hrpop (fun _ _ => rfl) (hpop.answer _))
    (fun now slot => corresponds_map _ fun popped hpopped => ?_) s
  rcases popped with _ | _ | ⟨data, _ | ⟨other, rest⟩⟩
  · exact .inr ⟨rfl, rfl⟩
  · exact .inr ⟨rfl, rfl⟩
  · exact .inl ⟨data, rfl, rfl⟩
  · have hlength := length_popped_le hpopped
    simp only [List.length_cons] at hlength
    omega

end Synonyms

/-- Synonymous scripts leave the same live whatever a keyspace holds and whenever they are run. They
are replied to alike, or both fail with the same error. -/
theorem synonyms_agree [Glob.Matcher] {script script' : Script}
    {law : List Frame → List Frame → Prop} (h : Synonyms script script' law) (ks : Keyspace)
    (client : Client) :
    Agree law (script.run (ks, client)) (script'.run (ks, client)) := by
  cases h with
  | sets hpos hmax h h' =>
    obtain ⟨frames, hall, hturns⟩ := h.turns hpos hmax
    obtain ⟨frames', hall', hturns'⟩ := h'.turns hpos hmax
    exact agree_of_turns hturns hturns' (fun _ _ => .replies ⟨hall, hall'⟩ _) _
  | getset key value => exact Synonyms.getset_agree key value _
  | setnx key value => exact Synonyms.setnx_agree key value _
  | @expire key n hmin hn =>
    obtain ⟨n, rfl⟩ := Decimal.exists_int64 (n := n) hmin (by omega)
    have hread : ofFrame (request "EXPIRE" [key, Decimal.bytes n.toInt]) =
        .ok (.keys (.expire key n)) := ofFrame_numbered key KeyCommand.expire rfl rfl n
    have hmillis : KeyCommand.secondsToMillis n ≤ 0 := by
      rw [KeyCommand.secondsToMillis_eq]
      omega
    exact Synonyms.expire_agree hmillis hread (fun _ _ => rfl) _
  | @pexpire key n hmin hn =>
    obtain ⟨n, rfl⟩ := Decimal.exists_int64 (n := n) hmin (by omega)
    have hread : ofFrame (request "PEXPIRE" [key, Decimal.bytes n.toInt]) =
        .ok (.keys (.pexpire key n)) := ofFrame_numbered key KeyCommand.pexpire rfl rfl n
    exact Synonyms.expire_agree hn hread (fun _ _ => rfl) _
  | getdel key => exact Synonyms.getdel_agree key _
  | incr key =>
    have hincr : ofFrame (request "INCR" [key]) = .ok (.strings (.incr key)) := rfl
    exact Synonyms.incrementBy_agree (n := 1) (m := 1) hincr (fun _ _ => rfl) rfl _
  | decr key =>
    have hdecr : ofFrame (request "DECR" [key]) = .ok (.strings (.decr key)) := rfl
    exact Synonyms.incrementBy_agree (n := -1) (m := -1) hdecr (fun _ _ => rfl) rfl _
  | @decrby key n hmin hmax =>
    obtain ⟨n, rfl⟩ := Decimal.exists_int64 (n := n) (by omega) hmax
    obtain ⟨m, hm⟩ := Decimal.exists_int64 (n := -n.toInt) (by omega) (by omega)
    have hdecrby : ofFrame (request "DECRBY" [key, Decimal.bytes n.toInt]) =
        .ok (.strings (.decrby key n)) := ofFrame_numbered key StringCommand.decrby rfl rfl n
    exact Synonyms.incrementBy_agree hdecrby (Synonyms.decrby_does hmin) hm _
  | hmset key hne => exact Synonyms.hmset_agree key hne _
  | brpop key htimeout => exact Synonyms.brpop_agree key htimeout _

/-- A string that takes the place of a list lives the longest time that a number of seconds can
state, and a counter that is in truth a list fails on either side. -/
theorem setex_and_incr_agree_on_list :
    let key : Bytes := [107]
    let ks : Keyspace := { entries := Table.empty.insert key ⟨.list [[120]], some 20⟩, now := 10 }
    let s : Keyspace × Client := (ks, { id := 1 })
    let seconds : Int := 9223372036854775
    let setex : Script := once (request "SETEX" [key, Decimal.bytes seconds, [118]])
    let inTwo : Script := send (request "SET" [key, [118]]) fun _ =>
      once (request "EXPIRE" [key, Decimal.bytes seconds])
    let incr : Script := once (request "INCR" [key])
    let incrby : Script := once (request "INCRBY" [key, Decimal.bytes 1])
    let law (replies replies' : List Frame) : Prop := AllSet replies ∧ AllSet replies'
    Synonyms setex inTwo law ∧ Agree law (setex.run s) (inTwo.run s) ∧
      (inTwo.run s).map (·.1) = some [.ok .ok, .ok (.integer 1)] ∧
      Synonyms incr incrby (· = ·) ∧ Agree (· = ·) (incr.run s) (incrby.run s) ∧
      (incr.run s).map (·.1) = some [.error (.store .wrongType)] := by
  intro key ks s seconds setex inTwo incr incrby law
  have hsets : Synonyms setex inTwo law := .sets (by decide) (by decide) .setex .expire
  have hincr : Synonyms incr incrby (· = ·) := .incr key
  exact ⟨hsets, synonyms_agree hsets ks { id := 1 }, by decide +kernel, hincr,
    synonyms_agree hincr ks { id := 1 }, by decide +kernel⟩

end RespStore
