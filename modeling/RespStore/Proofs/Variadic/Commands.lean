import RespStore.Proofs.Queue
import RespStore.Proofs.SortedSet.Stored
import RespStore.Proofs.Variadic

/-! Commands that take many arguments do what commands with one argument each do in their order. -/
namespace RespStore

namespace Table

variable {β : Type} {t : Table β}

theorem eq_empty_of_isEmpty (h : t.isEmpty = true) : t = empty := by
  obtain ⟨bindings, hbindings⟩ := t
  obtain rfl : bindings = [] := List.isEmpty_iff.1 h
  rfl

theorem isEmpty_insert (t : Table β) (key : Bytes) (value : β) :
    (t.insert key value).isEmpty = false := by
  by_contra h
  have hempty := eq_empty_of_isEmpty (Bool.eq_true_of_not_eq_false h)
  have hfound := t.get?_insert key key value
  rw [hempty, if_pos rfl] at hfound
  cases hfound

end Table

namespace SortedSet

theorem isEmpty_insert (z : SortedSet) (member : Bytes) (score : Binary64) :
    (z.insert member score).2.isEmpty = false := by
  unfold isEmpty
  rw [scores_insert]
  exact Table.isEmpty_insert _ _ _

theorem remove_of_isEmpty {z : SortedSet} (h : z.isEmpty = true) (member : Bytes) :
    z.remove member = (false, z) := by
  apply remove_of_absent
  unfold score?
  rw [Table.eq_empty_of_isEmpty h]
  rfl

end SortedSet

theorem SetCommand.removeMember_of_isEmpty {s : ByteSet} (h : s.isEmpty = true) (member : Bytes) :
    removeMember s member = (false, s) := by
  rw [Table.eq_empty_of_isEmpty h]
  rfl

theorem HashCommand.removeField_of_isEmpty {h : Table Bytes} (hempty : h.isEmpty = true)
    (field : Bytes) : removeField h field = (false, h) := by
  rw [Table.eq_empty_of_isEmpty hempty]
  rfl

theorem SortedSetCommand.addMember_of_isEmpty {condition : Option ScoreCondition} {changed : Bool}
    {z : SortedSet} {scored : Binary64 × Bytes}
    (h : (addMember condition changed z scored).2.isEmpty = true) :
    (addMember condition changed z scored).2 = z := by
  rcases snd_addMember condition changed z scored with heq | heq
  · exact heq
  · rw [heq, z.isEmpty_insert] at h
    cases h

/-- What a request for many fields lists of one of them. -/
def HashCommand.fieldReply (h : Table Bytes) (field : Bytes) : Frame :=
  .optionalBulk (field? (if Collection.isEmpty h = true then none else some h) field)

namespace StringCommand

def setBinding (ks : Keyspace) (b : Bytes × Bytes) : Frame × Keyspace :=
  (.ok, ks.set b.1 (.string b.2))

/-- The outcome of a request for the string under one key. -/
def gotten (found : Except StoreError (Option Bytes)) : Except CommandError Frame :=
  (found.map Frame.optionalBulk).mapError .store

end StringCommand

namespace ListCommand

def pushHead (values items : List Bytes) : Nat × List Bytes :=
  ((values.reverse ++ items).length, values.reverse ++ items)

def pushTail (values items : List Bytes) : Nat × List Bytes :=
  ((items ++ values).length, items ++ values)

theorem foldl_pushHead (items values : List Bytes) :
    values.foldl (fun items v => (pushHead [v] items).2) items = (pushHead values items).2 := by
  induction values generalizing items with
  | nil => rfl
  | cons v rest ih =>
    rw [List.foldl_cons, ih]
    simp [pushHead]

theorem foldl_pushTail (items values : List Bytes) :
    values.foldl (fun items v => (pushTail [v] items).2) items = (pushTail values items).2 := by
  induction values generalizing items with
  | nil => simp [pushTail]
  | cons v rest ih =>
    rw [List.foldl_cons, ih]
    simp [pushTail]

variable {pop : Nat → List Bytes → List Bytes × List Bytes}

def popOne (pop : Nat → List Bytes → List Bytes × List Bytes) (items : List Bytes) :
    Frame × List Bytes :=
  (.optionalBulk (pop 1 items).1.head?, (pop 1 items).2)

/-- By induction on the pops: those that find nothing reply with nulls. -/
theorem OneByOne.trace_popOne (h : OneByOne pop) (n : Nat) (items : List Bytes) :
    (trace (fun items () => popOne pop items) items (List.replicate n ())).1.filter
        (· ≠ .nullBulk) = (pop n items).1.map .bulk ∧
      (trace (fun items () => popOne pop items) items (List.replicate n ())).2 =
        (pop n items).2 := by
  induction n generalizing items with
  | zero =>
    rw [h.zero]
    exact ⟨rfl, rfl⟩
  | succ n ih =>
    obtain ⟨hreplies, hleft⟩ := ih (pop 1 items).2
    rw [List.replicate_succ, trace_cons, h.succ, List.filter_cons]
    refine ⟨?_, hleft⟩
    -- A single pop takes off one element at most.
    have hone := h.length_one items
    cases hpopped : (pop 1 items).1 with
    | nil =>
      have hnull : (popOne pop items).1 = .nullBulk := by
        rw [popOne, hpopped]
        rfl
      rw [hnull]
      exact hreplies
    | cons value rest =>
      rw [hpopped, List.length_cons] at hone
      obtain rfl : rest = [] := List.length_eq_zero_iff.1 (by omega)
      have hbulk : (popOne pop items).1 = .bulk value := by
        rw [popOne, hpopped]
        rfl
      rw [hbulk, if_pos (by simp)]
      exact congrArg (Frame.bulk value :: ·) hreplies

end ListCommand

namespace Command

/-- Which commands stand for which others, one for each argument or pair in order or, for the pops,
as many as are asked for, and how the replies make up one. Arguments may be repeated. -/
inductive Unfolds : Command → List Command → Law → Prop
  | del (keys : List Bytes) :
    Unfolds (.keys (.del keys)) (keys.map fun key => .keys (.del [key])) .sum
  | existing (keys : List Bytes) :
    Unfolds (.keys (.existing keys)) (keys.map fun key => .keys (.existing [key])) .sum
  | sadd (key : Bytes) (members : List Bytes) :
    Unfolds (.sets (.sadd key members)) (members.map fun m => .sets (.sadd key [m])) .sum
  | srem (key : Bytes) (members : List Bytes) :
    Unfolds (.sets (.srem key members)) (members.map fun m => .sets (.srem key [m])) .sum
  | hset (key : Bytes) (bindings : List (Bytes × Bytes)) :
    Unfolds (.hashes (.hset key bindings)) (bindings.map fun b => .hashes (.hset key [b])) .sum
  | hdel (key : Bytes) (fields : List Bytes) :
    Unfolds (.hashes (.hdel key fields)) (fields.map fun f => .hashes (.hdel key [f])) .sum
  | zadd (key : Bytes) (condition : Option ScoreCondition) (changed : Bool)
      (members : List (Binary64 × Bytes)) :
    Unfolds (.sortedSets (.zadd key condition changed members))
      (members.map fun m => .sortedSets (.zadd key condition changed [m])) .sum
  | zrem (key : Bytes) (members : List Bytes) :
    Unfolds (.sortedSets (.zrem key members)) (members.map fun m => .sortedSets (.zrem key [m]))
      .sum
  | lpush (key : Bytes) (values : List Bytes) :
    Unfolds (.lists (.lpush key values)) (values.map fun v => .lists (.lpush key [v])) .last
  | rpush (key : Bytes) (values : List Bytes) :
    Unfolds (.lists (.rpush key values)) (values.map fun v => .lists (.rpush key [v])) .last
  | mset (bindings : List (Bytes × Bytes)) :
    Unfolds (.strings (.mset bindings)) (bindings.map fun b => .strings (.mset [b])) .last
  | hmset (key : Bytes) (bindings : List (Bytes × Bytes)) :
    Unfolds (.hashes (.hmset key bindings)) (bindings.map fun b => .hashes (.hmset key [b])) .last
  | mget (keys : List Bytes) :
    Unfolds (.strings (.mget keys)) (keys.map fun key => .strings (.get key)) .list
  | hmget (key : Bytes) (fields : List Bytes) :
    Unfolds (.hashes (.hmget key fields)) (fields.map fun f => .hashes (.hget key f)) .list
  | lpop (key : Bytes) (n : Nat) :
    Unfolds (.lists (.lpop key (some n))) (List.replicate n (.lists (.lpop key none)))
      (.popped key)
  | rpop (key : Bytes) (n : Nat) :
    Unfolds (.lists (.rpop key (some n))) (List.replicate n (.lists (.rpop key none)))
      (.popped key)

variable {ks : Keyspace} {client : Client}

section
variable [Glob.Matcher]

theorem del_standsFor (keys : List Bytes) :
    StandsFor .sum ks client (keys.map fun key => .keys (.del [key])) (.keys (.del keys)) :=
  standsFor_counted (fun keys => .keys (.del keys)) (fun _ _ => rfl) (fun _ _ _ => id) keys

theorem existing_standsFor (keys : List Bytes) :
    StandsFor .sum ks client (keys.map fun key => .keys (.existing [key]))
      (.keys (.existing keys)) :=
  standsFor_counted (fun keys => .keys (.existing keys)) (fun _ _ => rfl) (fun _ _ _ => id) keys

theorem mset_standsFor (bindings : List (Bytes × Bytes)) :
    StandsFor .last ks client (bindings.map fun b => .strings (.mset [b]))
      (.strings (.mset bindings)) := by
  refine .of_steps StringCommand.setBinding .ok (fun _ _ => rfl) (fun k typeName h => ?_) ?_ ?_
  · cases h.1
  · exact snd_trace StringCommand.setBinding ks bindings
  · exact Law.combines_last StringCommand.setBinding (fun _ => .ok) (fun _ _ => rfl) ks ks bindings

theorem mget_standsFor (keys : List Bytes) :
    StandsFor .list ks client (keys.map fun key => .strings (.get key))
      (.strings (.mget keys)) := by
  have hexec : (Command.strings (.mget keys)).exec ks client =
      (.ok (.array ((ks.forEach Keyspace.getString keys).1.map fun found =>
        .optionalBulk (found.toOption.bind id))), (ks.forEach Keyspace.getString keys).2, client) :=
    rfl
  have hlisted (found : Except StoreError (Option Bytes)) :
      Frame.optionalBulk (found.toOption.bind id) = listed (StringCommand.gotten found) := by
    cases found <;> rfl
  rw [Keyspace.forEach_eq_trace] at hexec
  refine .of_steps Keyspace.getString StringCommand.gotten (fun _ _ => rfl)
    (fun k typeName h => ?_) ?_ ?_
  · cases h.1
  · rw [hexec]
  · rw [hexec]
    show Except.ok (Frame.array _) = Except.ok (Frame.array _)
    simp only [hlisted, List.map_map]
    rfl

section Collections

variable {key : Bytes} (hks : ks.Filled)
include hks

theorem sadd_standsFor (members : List Bytes) :
    StandsFor .sum ks client (members.map fun m => .sets (.sadd key [m]))
      (.sets (.sadd key members)) := by
  refine standsFor_added (fun members => .sets (.sadd key members)) ?_ hks SetCommand.addMember
    (fun _ _ _ => rfl) (fun s m h => ?_) client members
  · exact fun _ _ _ => and_congr_left' List.mem_singleton
  · exact absurd h (Bool.eq_false_iff.1 (s.isEmpty_insert m ()))

theorem srem_standsFor (members : List Bytes) :
    StandsFor .sum ks client (members.map fun m => .sets (.srem key [m]))
      (.sets (.srem key members)) := by
  refine standsFor_removed (fun members => .sets (.srem key members)) ?_ hks
    SetCommand.removeMember (fun _ _ _ => rfl) (fun s m h => ?_) client members
  · exact fun _ _ _ => and_congr_left' List.mem_singleton
  · exact SetCommand.removeMember_of_isEmpty h m

theorem hset_standsFor (bindings : List (Bytes × Bytes)) :
    StandsFor .sum ks client (bindings.map fun b => .hashes (.hset key [b]))
      (.hashes (.hset key bindings)) := by
  refine standsFor_added (fun bindings => .hashes (.hset key bindings)) ?_ hks
    HashCommand.setField (fun _ _ _ => rfl) (fun h b hempty => ?_) client bindings
  · exact fun _ _ _ => and_congr_left' List.mem_singleton
  · exact absurd hempty (Bool.eq_false_iff.1 (h.isEmpty_insert b.1 b.2))

theorem hdel_standsFor (fields : List Bytes) :
    StandsFor .sum ks client (fields.map fun f => .hashes (.hdel key [f]))
      (.hashes (.hdel key fields)) := by
  refine standsFor_removed (fun fields => .hashes (.hdel key fields)) ?_ hks
    HashCommand.removeField (fun _ _ _ => rfl) (fun h f hempty => ?_) client fields
  · exact fun _ _ _ => and_congr_left' List.mem_singleton
  · exact HashCommand.removeField_of_isEmpty hempty f

theorem zadd_standsFor (condition : Option ScoreCondition) (changed : Bool)
    (members : List (Binary64 × Bytes)) :
    StandsFor .sum ks client
      (members.map fun m => .sortedSets (.zadd key condition changed [m]))
      (.sortedSets (.zadd key condition changed members)) := by
  refine standsFor_added (fun members => .sortedSets (.zadd key condition changed members)) ?_ hks
    (SortedSetCommand.addMember condition changed) (fun _ _ _ => rfl) (fun z m h => ?_) client
    members
  · exact fun _ _ _ => and_congr_left' List.mem_singleton
  · exact SortedSetCommand.addMember_of_isEmpty h

theorem zrem_standsFor (members : List Bytes) :
    StandsFor .sum ks client (members.map fun m => .sortedSets (.zrem key [m]))
      (.sortedSets (.zrem key members)) := by
  refine standsFor_removed (fun members => .sortedSets (.zrem key members)) ?_ hks
    SortedSet.remove (fun _ _ _ => rfl) (fun z m h => ?_) client members
  · exact fun _ _ _ => and_congr_left' List.mem_singleton
  · exact SortedSet.remove_of_isEmpty h m

theorem lpush_standsFor (values : List Bytes) :
    StandsFor .last ks client (values.map fun v => .lists (.lpush key [v]))
      (.lists (.lpush key values)) := by
  refine standsFor_last (fun values => .lists (.lpush key values)) ?_ hks ListCommand.pushHead
    .count (fun items => .count items.length) (fun _ _ _ => rfl) (fun _ _ => rfl)
    (fun items v h => ?_) ListCommand.foldl_pushHead client values
  · exact fun _ _ _ => and_congr_left' List.mem_singleton
  · cases h

theorem rpush_standsFor (values : List Bytes) :
    StandsFor .last ks client (values.map fun v => .lists (.rpush key [v]))
      (.lists (.rpush key values)) := by
  refine standsFor_last (fun values => .lists (.rpush key values)) ?_ hks ListCommand.pushTail
    .count (fun items => .count items.length) (fun _ _ _ => rfl) (fun _ _ => rfl)
    (fun items v h => ?_) ListCommand.foldl_pushTail client values
  · exact fun _ _ _ => and_congr_left' List.mem_singleton
  · cases items <;> cases h

theorem hmset_standsFor (bindings : List (Bytes × Bytes)) :
    StandsFor .last ks client (bindings.map fun b => .hashes (.hmset key [b]))
      (.hashes (.hmset key bindings)) := by
  refine standsFor_last (fun bindings => .hashes (.hmset key bindings)) ?_ hks
    (fun bindings h => tally HashCommand.setField h bindings) (fun _ => .ok) (fun _ => .ok)
    (fun _ _ _ => rfl) (fun _ _ => rfl) (fun h b hempty => ?_) (fun h bindings => ?_) client
    bindings
  · exact fun _ _ _ => and_congr_left' List.mem_singleton
  · exact absurd hempty (Bool.eq_false_iff.1 (h.isEmpty_insert b.1 b.2))
  · rw [tally_eq_trace, snd_trace]

theorem hmget_standsFor (fields : List Bytes) :
    StandsFor .list ks client (fields.map fun f => .hashes (.hget key f))
      (.hashes (.hmget key fields)) := by
  have hmany : (Command.hashes (.hmget key fields)).Acts key (fun _ _ => True)
      fun h => (.array (fields.map (HashCommand.fieldReply h)), h) :=
    acts_read (fun found => .array (fields.map fun f => .optionalBulk (HashCommand.field? found f)))
      fun _ _ => rfl
  have hone (f : Bytes) : (Command.hashes (.hget key f)).Acts key (fun _ _ => True)
      fun h => (HashCommand.fieldReply h f, h) :=
    acts_read (fun found => .optionalBulk (HashCommand.field? found f)) fun _ _ => rfl
  refine .of_acts ?_ ?_ hmany hone (fun _ => trivial) (fun _ _ => trivial) (fun h => ?_) hks
    (fun deadline h _ => ?_) client
  · exact fun _ _ => and_congr_left' List.mem_singleton
  · exact fun _ => ⟨List.mem_cons_self, rfl⟩
  · rw [trace_of_unchanged HashCommand.fieldReply]
  · rw [trace_of_unchanged HashCommand.fieldReply]
    show Except.ok (Frame.array _) = Except.ok (Frame.array _)
    rw [map_listed_ok]

theorem pop_standsFor {pop : Nat → List Bytes → List Bytes × List Bytes}
    (hpop : ListCommand.OneByOne pop) (command : Option Nat → Command)
    (hat : ∀ count k typeName, (command count).Addresses k typeName ↔ k = key ∧ typeName = "list")
    (hdoes : ∀ count, (command count).Does fun ks =>
      answer (ListCommand.popReply count) (ks.update key (pop (count.getD 1))))
    (n : Nat) : StandsFor (.popped key) ks client (List.replicate n (command none))
      (command (some n)) := by
  have hempty (n : Nat) (items : List Bytes) (h : Collection.isEmpty items = true) :
      (pop n items).2 = items := by
    rw [List.isEmpty_iff.1 h, hpop.nil]
  have hmany := acts_update (hdoes (some n)) (hempty n)
  have hone : (command none).Acts key (fun _ _ => True) (ListCommand.popOne pop) := by
    refine (acts_update (hdoes none) (hempty 1)).congr fun items => ?_
    cases h : Collection.isEmpty items with
    | true =>
      obtain rfl := List.isEmpty_iff.1 h
      show (Frame.nullBulk, (pop 1 []).2) = (.optionalBulk (pop 1 []).1.head?, (pop 1 []).2)
      rw [hpop.nil]
      rfl
    | false => rfl
  have hsingles : List.replicate n (command none) =
      (List.replicate n ()).map fun _ => command none := by rw [List.map_replicate]
  rw [hsingles]
  refine .of_acts (hat (some n)) (fun _ => (hat none _ _).2 ⟨rfl, rfl⟩) hmany (fun _ => hone)
    (fun _ => trivial) (fun _ _ => trivial) (fun items => (hpop.trace_popOne n items).2) hks
    (fun deadline items h => ?_) client
  refine ⟨_, rfl, ?_⟩
  rw [h, (hpop.trace_popOne n items).1]
  simp only [Slot.ofCollection_eq_none_iff]
  cases Collection.isEmpty items <;> rfl

theorem Unfolds.standsFor {whole : Command} {singles : List Command} {law : Law}
    (h : Unfolds whole singles law) : StandsFor law ks client singles whole := by
  cases h with
  | del keys => exact del_standsFor keys
  | existing keys => exact existing_standsFor keys
  | sadd key members => exact sadd_standsFor hks members
  | srem key members => exact srem_standsFor hks members
  | hset key bindings => exact hset_standsFor hks bindings
  | hdel key fields => exact hdel_standsFor hks fields
  | zadd key condition changed members => exact zadd_standsFor hks condition changed members
  | zrem key members => exact zrem_standsFor hks members
  | lpush key values => exact lpush_standsFor hks values
  | rpush key values => exact rpush_standsFor hks values
  | mset bindings => exact mset_standsFor bindings
  | hmset key bindings => exact hmset_standsFor hks bindings
  | mget keys => exact mget_standsFor keys
  | hmget key fields => exact hmget_standsFor hks fields
  | lpop key n =>
    exact pop_standsFor hks ListCommand.popHead_oneByOne (fun count => .lists (.lpop key count))
      (fun _ _ _ => and_congr_left' List.mem_singleton) (fun _ _ _ => rfl) n
  | rpop key n =>
    exact pop_standsFor hks ListCommand.popTail_oneByOne (fun count => .lists (.rpop key count))
      (fun _ _ _ => and_congr_left' List.mem_singleton) (fun _ _ _ => rfl) n

end Collections

/-- Wherever a server gets to, a command with many arguments leaves what commands with one argument
each leave, and its reply is made up of theirs: their sum, the last of them, or a list. If the key
holds a value of another type they all fail. -/
theorem variadic_stands_for_singles {ks : Keyspace} (hks : ks.Reachable) (client : Client)
    {whole : Command} {singles : List Command} {law : Law} (h : Unfolds whole singles law) :
    StandsFor law ks client singles whole := h.standsFor hks.filled

end

/-- Three pops of a list of two elements, which is gone before the last, and additions of one member
twice to a set that is in truth a list. -/
theorem pops_stand_for_singles_past_end :
    let client : Client := { id := 1 }
    let frame (words : List String) : Frame := .bulkArray (words.map Bytes.ofString)
    let push : Command := .lists (.rpush [108] [[120], [121]])
    let ks := (push.exec {} client).2.1
    let pop : Command := .lists (.lpop [108] none)
    let pops : Command := .lists (.lpop [108] (some 3))
    let add : Command := .sets (.sadd [108] [[97]])
    let adds : Command := .sets (.sadd [108] [[97], [97]])
    Command.ofFrame (frame ["RPUSH", "l", "x", "y"]) = .ok push ∧ ks.Reachable ∧
      Unfolds pops [pop, pop, pop] (.popped [108]) ∧
      StandsFor (.popped [108]) ks client [pop, pop, pop] pops ∧
      (execEach (ks, client) [pop, pop, pop]).1 =
        [.ok (.bulk [120]), .ok (.bulk [121]), .ok .nullBulk] ∧
      (pops.exec ks client).1 = .ok (.bulkArray [[120], [121]]) ∧
      Unfolds adds [add, add] .sum ∧ StandsFor .sum ks client [add, add] adds ∧
      (adds.exec ks client).1 = .error (.store .wrongType) := by
  intro client frame push ks pop pops add adds
  have hread : Command.ofFrame (frame ["RPUSH", "l", "x", "y"]) = .ok push := by decide +kernel
  have hks : ks.Reachable := Keyspace.Reachable.start.exec hread client
  have hpops : Unfolds pops [pop, pop, pop] (.popped [108]) := .lpop [108] 3
  have hadds : Unfolds adds [add, add] .sum := .sadd [108] [[97], [97]]
  exact ⟨hread, hks, hpops, variadic_stands_for_singles hks client hpops, by decide +kernel,
    by decide +kernel, hadds, variadic_stands_for_singles hks client hadds, by decide +kernel⟩

end Command
end RespStore
