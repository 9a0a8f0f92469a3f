import RespStore.Engine
import RespStore.Proofs.Access.Commands
import RespStore.Proofs.Frame.RoundTrip
import RespStore.Proofs.Session

/-! All that commands reply with, whatever they are executed on, stays on its line. -/
namespace RespStore

namespace Frame

theorem oneLine_array_iff {items : List Frame} :
    (array items).OneLine ↔ ∀ f ∈ items, f.OneLine := by
  unfold OneLine
  rw [Every, everyIn_iff]
  simp only [true_and]

theorem oneLine_bulkArray (items : List Bytes) : (bulkArray items).OneLine := by
  refine oneLine_array_iff.2 fun f hf => ?_
  obtain ⟨data, -, rfl⟩ := List.mem_map.1 hf
  exact trivial

theorem oneLine_optionalBulk : ∀ data : Option Bytes, (optionalBulk data).OneLine
  | none => trivial
  | some _ => trivial

theorem oneLine_ok : ok.OneLine := isLine_of_not_mem (by decide)

end Frame

/-- A reply, if there is one, stays on its line. -/
def Outcome.OneLine (outcome : Outcome) : Prop := ∀ reply, outcome.1 = .ok reply → reply.OneLine

theorem Outcome.OneLine.ok {reply : Frame} (h : reply.OneLine) (ks : Keyspace) :
    Outcome.OneLine (.ok reply, ks) := by
  rintro _ ⟨⟩
  exact h

theorem Outcome.OneLine.error (e : StoreError) (ks : Keyspace) :
    Outcome.OneLine (.error e, ks) := by
  intro reply h
  cases h

theorem answer_oneLine {α : Type} {f : α → Frame} (hf : ∀ a, (f a).OneLine)
    (r : Except StoreError α × Keyspace) : (answer f r).OneLine := by
  intro reply h
  obtain ⟨a, -, rfl⟩ := map_eq_ok_iff.1 h
  exact hf a

theorem Value.isLine_typeName (found : Option Value) :
    IsLine (found.elim "none" Value.typeName) := by
  rcases found with _ | _ | _ | _ | _ | _
  all_goals simp only [Option.elim_none, Option.elim_some, typeName]
  all_goals exact isLine_of_not_mem (by decide)

theorem KeyCommand.exec_oneLine [Glob.Matcher] (ks : Keyspace) (c : KeyCommand) :
    (c.exec ks).1.OneLine := by
  cases c with
  | keys pattern => exact Frame.oneLine_bulkArray _
  | pttl key | ttl key =>
    show (ttlReply _ _).OneLine
    unfold ttlReply
    split <;> trivial
  | typeOf key => exact Value.isLine_typeName _
  | _ => trivial

namespace StringCommand

theorem setReply_oneLine (get holds : Bool) (old : Option Bytes) :
    (if get then Frame.optionalBulk old else if holds then .ok else .nullBulk : Frame).OneLine := by
  split
  · exact Frame.oneLine_optionalBulk old
  · split
    · exact Frame.oneLine_ok
    · exact trivial

theorem setAfter_oneLine (key value : Bytes) (o : SetOptions)
    (old : Except StoreError (Option Bytes)) (ks : Keyspace) :
    (setAfter key value o old ks).OneLine := by
  cases old with
  | error e => exact .error e ks
  | ok old => exact .ok (setReply_oneLine o.get _ old) _

theorem exec_oneLine (ks : Keyspace) (c : StringCommand) : (c.exec ks).OneLine := by
  cases c with
  | decrby key decrement =>
    rw [exec]
    split
    · exact .error _ ks
    · exact answer_oneLine (fun _ => by trivial) _
  | get key | getdel key | getset key value => exact answer_oneLine Frame.oneLine_optionalBulk _
  | mget keys =>
    refine .ok (Frame.oneLine_array_iff.2 fun f hf => ?_) _
    obtain ⟨r, -, rfl⟩ := List.mem_map.1 hf
    exact Frame.oneLine_optionalBulk _
  | mset bindings => exact .ok Frame.oneLine_ok _
  | psetex key ttl value | setex key ttl value => exact .ok Frame.oneLine_ok _
  | set key value options =>
    rw [exec, setWith_eq]
    exact setAfter_oneLine key value options _ _
  | setnx key value => exact .ok (by trivial) _
  | _ => exact answer_oneLine (fun _ => by trivial) _

end StringCommand

namespace ListCommand

theorem popFirst_oneLine (ks : Keyspace) (keys : List Bytes) : (popFirst ks keys).OneLine := by
  induction keys generalizing ks with
  | nil => exact .ok (by trivial) ks
  | cons key rest ih =>
    rw [popFirst_cons]
    unfold afterPop
    split
    · exact .error _ _
    · exact .ok (Frame.oneLine_bulkArray _) _
    · exact ih _

theorem exec_oneLine (ks : Keyspace) (c : ListCommand) : (c.exec ks).OneLine := by
  have hpop (count : Option Nat) (popped : Option (List Bytes)) :
      (popReply count popped).OneLine := by
    unfold popReply
    split
    · exact trivial
    · exact trivial
    · exact Frame.oneLine_bulkArray _
    · exact Frame.oneLine_optionalBulk _
  cases c with
  | brpop keys timeout => exact popFirst_oneLine ks keys
  | lpop key count | rpop key count => exact answer_oneLine (hpop count) _
  | lrange key start stop => exact answer_oneLine (fun _ => Frame.oneLine_bulkArray _) _
  | _ => exact answer_oneLine (fun _ => by trivial) _

end ListCommand

theorem SetCommand.exec_oneLine [Glob.Matcher] (ks : Keyspace) (c : SetCommand) :
    (c.exec ks).OneLine := by
  cases c with
  | smembers key => exact answer_oneLine (fun _ => Frame.oneLine_bulkArray _) _
  | sscan key cursor pattern count =>
    refine answer_oneLine (fun found => Frame.oneLine_array_iff.2 ?_) _
    simp only [List.forall_mem_cons, List.not_mem_nil, false_implies, implies_true, and_true]
    exact ⟨trivial, Frame.oneLine_bulkArray _⟩
  | _ => exact answer_oneLine (fun _ => by trivial) _

theorem SortedSetCommand.rangeOf_oneLine (ks : Keyspace) (key : Bytes) (scores : Bool)
    (select : SortedSet → List (Bytes × Binary64)) : (rangeOf ks key scores select).OneLine := by
  refine answer_oneLine (fun found => Frame.oneLine_array_iff.2 fun f hf => ?_) _
  obtain ⟨scored, -, hf⟩ := List.mem_flatMap.1 hf
  dsimp only at hf
  split at hf
  · rcases List.mem_cons.1 hf with rfl | hf
    · exact trivial
    · rw [List.mem_singleton.1 hf]
      exact trivial
  · rw [List.mem_singleton.1 hf]
    exact trivial

theorem SortedSetCommand.exec_oneLine (ks : Keyspace) (c : SortedSetCommand) :
    (c.exec ks).OneLine := by
  cases c with
  | zrange key start stop scores => exact rangeOf_oneLine ks key scores _
  | zrangebyscore key min max scores limit => exact rangeOf_oneLine ks key scores _
  | zrevrange key start stop scores => exact rangeOf_oneLine ks key scores _
  | zscore key member => exact answer_oneLine (fun _ => Frame.oneLine_optionalBulk _) _
  | _ => exact answer_oneLine (fun _ => by trivial) _

theorem HashCommand.exec_oneLine (ks : Keyspace) (c : HashCommand) : (c.exec ks).OneLine := by
  cases c with
  | hget key field => exact answer_oneLine (fun _ => Frame.oneLine_optionalBulk _) _
  | hgetall key => exact answer_oneLine (fun _ => Frame.oneLine_bulkArray _) _
  | hmget key fields =>
    refine answer_oneLine (fun found => Frame.oneLine_array_iff.2 fun f hf => ?_) _
    obtain ⟨field, -, rfl⟩ := List.mem_map.1 hf
    exact Frame.oneLine_optionalBulk _
  | hmset key bindings => exact answer_oneLine (fun _ => Frame.oneLine_ok) _
  | _ => exact answer_oneLine (fun _ => by trivial) _

theorem ServerCommand.exec_oneLine (ks : Keyspace) (client : Client) (c : ServerCommand) :
    (c.exec ks client).1.OneLine := by
  cases c with
  | clientGetName => exact Frame.oneLine_optionalBulk _
  | ping payload =>
    cases payload with
    | none => exact isLine_of_not_mem (by decide)
    | some payload => exact trivial
  | clientSetLibName value | clientSetLibVersion value | clientSetName name => exact Frame.oneLine_ok
  | flushdb | quit | select => exact Frame.oneLine_ok
  | _ => trivial

theorem StoreError.isLine_message (e : StoreError) : IsLine e.message := by
  cases e <;> exact isLine_of_not_mem (by decide)

theorem TransactionError.isLine_message (e : TransactionError) : IsLine e.message := by
  cases e with
  | queueFull limit =>
    have hbefore : IsLine "ERR transaction discarded, more than " := isLine_of_not_mem (by decide)
    have hafter : IsLine " commands queued" := isLine_of_not_mem (by decide)
    have hlimit : IsLine (toString limit) :=
      isLine_of_not_mem (Decimal.newline_not_mem_repr limit)
    exact (isLine_around_iff hbefore hafter (by decide) (by decide)).2 hlimit
  | _ => exact isLine_of_not_mem (by decide)

theorem CommandError.isLine_message (e : CommandError) : IsLine e.message := by
  cases e with
  | store cause => exact cause.isLine_message
  | transaction cause => exact cause.isLine_message

theorem Command.exec_oneLine [Glob.Matcher] (ks : Keyspace) (client : Client) (c : Command) :
    (CommandError.replyTo (c.exec ks client).1).OneLine := by
  have hstore {outcome : Outcome} (h : outcome.OneLine) :
      (CommandError.replyTo (outcome.1.mapError CommandError.store)).OneLine := by
    obtain ⟨r, ks'⟩ := outcome
    cases r with
    | ok reply => exact h reply rfl
    | error e => exact e.isLine_message
  cases c with
  | keys c => exact c.exec_oneLine ks
  | strings c => exact hstore (c.exec_oneLine ks)
  | lists c => exact hstore (c.exec_oneLine ks)
  | sets c => exact hstore (c.exec_oneLine ks)
  | sortedSets c => exact hstore (c.exec_oneLine ks)
  | hashes c => exact hstore (c.exec_oneLine ks)
  | server c => exact c.exec_oneLine ks client
  | transaction c => exact c.error.isLine_message

end RespStore
