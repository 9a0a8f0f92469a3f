import RespStore.Proofs.Holding
import RespStore.Proofs.Locality

/-! A list that elements are pushed to at one end only and popped from at the other is a queue,
however many sessions share it. -/
namespace RespStore
open Keyspace

namespace Frame

def bulk? : Frame → Option Bytes
  | .bulk data => some data
  | _ => none

/-- The elements that a pop replies with: one, or any number in an array. -/
def elements : Frame → List Bytes
  | .bulk data => [data]
  | .array items => items.filterMap bulk?
  | _ => []

/-- The element that a pop from several keys replies with, if it comes from a given key. -/
def elementOf (key : Bytes) (reply : Frame) : List Bytes :=
  match reply.elements with
  | [k, value] => if k = key then [value] else []
  | _ => []

theorem elements_bulkArray (items : List Bytes) : (bulkArray items).elements = items := by
  show (items.map bulk).filterMap bulk? = items
  rw [List.filterMap_map]
  exact List.filterMap_some

end Frame

namespace Execution

def pushed (key : Bytes) (x : Execution) : List Bytes :=
  match x.command with
  | .lists (.lpush k values) | .lists (.rpush k values) => if k = key then values else []
  | _ => []

def popped (key : Bytes) (x : Execution) : List Bytes :=
  match x.command with
  | .lists (.lpop k _) | .lists (.rpop k _) => if k = key then x.reply.elements else []
  | .lists (.brpop _ _) => x.reply.elementOf key
  | _ => []

end Execution

/-- The end of a list at which elements come in. -/
inductive Inlet where
  | head
  | tail

namespace Inlet

def push (key : Bytes) (values : List Bytes) : Inlet → ListCommand
  | .head => .lpush key values
  | .tail => .rpush key values

def pop (key : Bytes) (count : Option Nat) : Inlet → ListCommand
  | .head => .rpop key count
  | .tail => .lpop key count

/-- The elements of a list in the order in which they came in. -/
def inOrder (items : List Bytes) : Inlet → List Bytes
  | .head => items.reverse
  | .tail => items

/-- The commands that keep a list a queue: pushes at one end, pops at the other, attempts of sessions
that wait among them, and all that does not name its key. -/
inductive Permits (inlet : Inlet) (key : Bytes) : Command → Prop
  | push (values : List Bytes) : Permits inlet key (.lists (inlet.push key values))
  | pop (count : Option Nat) : Permits inlet key (.lists (inlet.pop key count))
  | wait (h : inlet = .head) (keys : List Bytes) (timeout : Nat) :
      Permits inlet key (.lists (.brpop keys timeout))
  | elsewhere {c : Command} (hkey : key ∉ c.named) (hflush : c ≠ .server .flushdb) :
      Permits inlet key c

theorem Permits.timeout {inlet : Inlet} {key : Bytes} (keys : List Bytes) (t t' : Nat)
    (h : Permits inlet key (.lists (.brpop keys t))) :
    Permits inlet key (.lists (.brpop keys t')) := by
  generalize hc : Command.lists (.brpop keys t) = c at h
  cases h with
  | push values => cases inlet <;> cases hc
  | pop count => cases inlet <;> cases hc
  | wait h _ _ => exact .wait h keys t'
  | elsewhere hkey _ =>
    subst hc
    exact .elsewhere hkey nofun

end Inlet

namespace Slot

/-- A list under no deadline, or nothing if it has no elements. -/
abbrev ofItems (items : List Bytes) : Slot := ofCollection none items

theorem liveAt_ofItems (now : Nat) (items : List Bytes) : LiveAt now (ofItems items) := by
  cases items with
  | nil => exact liveAt_none
  | cons item rest => nofun

theorem ofItems_injective {items items' : List Bytes} (h : ofItems items = ofItems items') :
    items = items' := by
  cases items <;> cases items' <;> simp_all [ofItems, ofCollection, Collection.isEmpty,
    Collection.toValue]

end Slot

namespace Keyspace

variable {ks : Keyspace} {key : Bytes} {items : List Bytes}

/-- What is live under a key is a list of these elements, without a deadline. -/
def Queues (ks : Keyspace) (key : Bytes) (items : List Bytes) : Prop :=
  ks.live.get? key = Slot.ofItems items

/-- A list without a deadline stays, and what has expired does not come back. -/
theorem Queues.tick (h : ks.Queues key items) {later : Nat} (hlater : ks.now ≤ later) :
    Queues { ks with now := later } key items := by
  unfold Queues at h ⊢
  rw [get?_live] at h ⊢
  cases hentry : ks.entries.get? key with
  | none =>
    rw [hentry] at h
    exact h
  | some e =>
    rw [hentry] at h
    cases hnow : e.isExpired ks.now with
    | true =>
      have hthen : e.isExpired later = true := Entry.isExpired_mono hlater hnow
      simpa [Option.filter, hnow, hthen] using h
    | false =>
      have he : some e = Slot.ofItems items := by simpa [Option.filter, hnow] using h
      have hthen : e.isExpired later = false :=
        Slot.liveAt_some_iff.1 (he ▸ Slot.liveAt_ofItems later items)
      simpa [Option.filter, hthen] using he

theorem Queues.elsewhere (h : ks.Queues key items) {ks' : Keyspace} {keys : List Bytes}
    (hkey : key ∉ keys) (hagree : ks.Agree (· ∉ keys) ks') : ks'.Queues key items :=
  (hagree.get?_live hkey).trans h

theorem queues_of_set {ks' : Keyspace} (h : ks'.live = ks.live.set key (Slot.ofItems items)) :
    ks'.Queues key items := by
  unfold Queues
  rw [h, Table.get?_set, if_pos rfl]

theorem Queues.upsert {β : Type} (h : ks.Queues key items) (f : List Bytes → β × List Bytes) :
    (ks.upsert key f).1 = .ok (f items).1 ∧ (ks.upsert key f).2.Queues key (f items).2 := by
  obtain ⟨hresult, hlive⟩ := upsert_of_held h (fun hempty => ⟨List.isEmpty_iff.1 hempty, rfl⟩) f
  exact ⟨hresult, queues_of_set hlive⟩

theorem Queues.update_nil {β : Type} (h : ks.Queues key []) (f : List Bytes → β × List Bytes) :
    (ks.update key f).1 = .ok none ∧ (ks.update key f).2.Queues key [] := by
  obtain ⟨hresult, hlive⟩ := update_of_absent h f
  unfold Queues
  rw [hlive]
  exact ⟨hresult, h⟩

theorem Queues.update_cons {β : Type} (h : ks.Queues key items) (hne : items ≠ [])
    (f : List Bytes → β × List Bytes) :
    (ks.update key f).1 = .ok (some (f items).1) ∧ (ks.update key f).2.Queues key (f items).2 := by
  have hkept : Collection.isEmpty items = false := List.isEmpty_eq_false_iff.2 hne
  obtain ⟨hresult, hlive⟩ := update_of_found (h.trans (Slot.ofCollection_of_not_isEmpty hkept)) f
  exact ⟨hresult, queues_of_set hlive⟩

end Keyspace

namespace ListCommand

variable {ks : Keyspace} {key : Bytes} {items : List Bytes}

theorem popFirst_conserves (targets : List Bytes) (h : ks.Queues key items) :
    ∃ left, (popFirst ks targets).2.Queues key left ∧
      (CommandError.replyTo ((popFirst ks targets).1.mapError .store)).elementOf key ++
        left.reverse = items.reverse := by
  induction targets generalizing ks with
  | nil => exact ⟨items, h, rfl⟩
  | cons k rest ih =>
    rw [popFirst_cons]
    by_cases hk : k = key
    · subst hk
      rcases List.eq_nil_or_concat items with rfl | ⟨init, last, rfl⟩
      · obtain ⟨hnone, hleft⟩ := h.update_nil (popTail 1)
        rw [hnone]
        exact ih hleft
      · obtain ⟨hsome, hleft⟩ := h.update_cons (by simp) (popTail 1)
        have hpop : popTail 1 (init.concat last) = ([last], init) := by simp [popTail]
        rw [hpop] at hsome hleft
        rw [hsome]
        refine ⟨init, hleft, ?_⟩
        show (Frame.bulkArray [k, last]).elementOf k ++ init.reverse = _
        simp [Frame.elementOf, Frame.elements_bulkArray]
    · have hop : LocalTo [k] fun ks => ks.update k (popTail 1) :=
        .of_accesses ((Attempts.update List.mem_cons_self (popTail 1)).accesses .keep)
      -- Elsewhere the attempt leaves the queue alone, whatever it takes.
      have hleft : (ks.update k (popTail 1)).2.Queues key items :=
        h.elsewhere (by simpa using Ne.symm hk) (hop.off ks)
      rcases (ks.update k (popTail 1)).1 with e | _ | _ | ⟨value, _ | _⟩
      · exact ⟨items, hleft, rfl⟩
      · exact ih hleft
      · exact ih hleft
      · refine ⟨items, hleft, ?_⟩
        show (Frame.bulkArray [k, value]).elementOf key ++ items.reverse = _
        simp [Frame.elementOf, Frame.elements_bulkArray, hk]
      · exact ih hleft

theorem elements_popReply {count : Option Nat} {values : List Bytes}
    (h : count = none → values.length ≤ 1) : (popReply count (some values)).elements = values := by
  cases count with
  | some n => exact Frame.elements_bulkArray values
  | none =>
    match values, h rfl with
    | [], _ => rfl
    | [_], _ => rfl

/-- Pops of several elements are pops of one and then of the others. -/
structure OneByOne (pop : Nat → List Bytes → List Bytes × List Bytes) : Prop where
  nil : ∀ n, pop n [] = ([], [])
  zero : ∀ items, pop 0 items = ([], items)
  succ : ∀ n items, pop (n + 1) items =
    ((pop 1 items).1 ++ (pop n (pop 1 items).2).1, (pop n (pop 1 items).2).2)
  length_one : ∀ items, (pop 1 items).1.length ≤ 1

theorem popHead_oneByOne : OneByOne popHead where
  nil n := by simp [popHead]
  zero items := rfl
  succ n items := by
    simp only [popHead, List.drop_drop, Prod.mk.injEq]
    exact ⟨by rw [Nat.add_comm, List.take_add], by rw [Nat.add_comm]⟩
  length_one items := List.length_take_le 1 items

theorem popTail_eq (n : Nat) (items : List Bytes) :
    popTail n items = ((popHead n items.reverse).1, (popHead n items.reverse).2.reverse) := by
  simp only [popTail, popHead, List.take_reverse, List.drop_reverse, List.reverse_reverse]

theorem popTail_oneByOne : OneByOne popTail where
  nil n := by simp [popTail]
  zero items := by simp [popTail]
  succ n items := by
    simp only [popTail_eq, popHead_oneByOne.succ n items.reverse, List.reverse_reverse]
  length_one items := by
    rw [popTail_eq]
    exact popHead_oneByOne.length_one items.reverse

theorem pop_replies (h : ks.Queues key items) (count : Option Nat)
    {pop : Nat → List Bytes → List Bytes × List Bytes} (hpop : OneByOne pop) :
    (CommandError.replyTo ((answer (popReply count)
      (ks.update key (pop (count.getD 1)))).1.mapError .store)).elements =
        (pop (count.getD 1) items).1 ∧
      (answer (popReply count) (ks.update key (pop (count.getD 1)))).2.Queues key
        (pop (count.getD 1) items).2 := by
  unfold answer
  by_cases hitems : items = []
  · subst hitems
    obtain ⟨hnone, hleft⟩ := h.update_nil (pop (count.getD 1))
    rw [hnone, hpop.nil]
    refine ⟨?_, hleft⟩
    cases count <;> rfl
  · obtain ⟨hsome, hleft⟩ := h.update_cons hitems (pop (count.getD 1))
    rw [hsome]
    refine ⟨elements_popReply ?_, hleft⟩
    rintro rfl
    exact hpop.length_one items

theorem popTail_conserves (n : Nat) (items : List Bytes) :
    (popTail n items).1 ++ (popTail n items).2.reverse = items.reverse := by
  rw [popTail, ← List.reverse_append, List.take_append_drop]

theorem popHead_conserves (n : Nat) (items : List Bytes) :
    (popHead n items).1 ++ (popHead n items).2 = items := List.take_append_drop n items

end ListCommand

namespace Inlet

variable {inlet : Inlet} {ks : Keyspace} {key : Bytes} {items : List Bytes} {c : Command}

/-- What an execution does to a queue: it pops what is first in order, and pushes what is last. -/
def Conserves (inlet : Inlet) (key : Bytes) (items left : List Bytes) (x : Execution) : Prop :=
  x.popped key ++ inlet.inOrder left = inlet.inOrder items ++ x.pushed key

variable [Glob.Matcher]

theorem push_conserves (h : ks.Queues key items) (values : List Bytes) (client : Client) :
    ∃ left, ((Command.lists (inlet.push key values)).exec ks client).2.1.Queues key left ∧
      inlet.Conserves key items left ⟨.lists (inlet.push key values),
        CommandError.replyTo ((Command.lists (inlet.push key values)).exec ks client).1⟩ := by
  cases inlet with
  | head =>
    refine ⟨values.reverse ++ items, (h.upsert _).2, ?_⟩
    simp [Conserves, inOrder, push, Execution.popped, Execution.pushed]
  | tail =>
    refine ⟨items ++ values, (h.upsert _).2, ?_⟩
    simp [Conserves, inOrder, push, Execution.popped, Execution.pushed]

theorem pop_conserves (h : ks.Queues key items) (count : Option Nat) (client : Client) :
    ∃ left, ((Command.lists (inlet.pop key count)).exec ks client).2.1.Queues key left ∧
      inlet.Conserves key items left ⟨.lists (inlet.pop key count),
        CommandError.replyTo ((Command.lists (inlet.pop key count)).exec ks client).1⟩ := by
  cases inlet with
  | head =>
    obtain ⟨hreply, hleft⟩ := ListCommand.pop_replies h count ListCommand.popTail_oneByOne
    refine ⟨_, hleft, ?_⟩
    show (if key = key then _ else []) ++ List.reverse _ = items.reverse ++ []
    rw [if_pos rfl, List.append_nil, ← ListCommand.popTail_conserves (count.getD 1) items]
    exact congrArg (· ++ _) hreply
  | tail =>
    obtain ⟨hreply, hleft⟩ := ListCommand.pop_replies h count ListCommand.popHead_oneByOne
    refine ⟨_, hleft, ?_⟩
    show (if key = key then _ else []) ++ _ = items ++ []
    rw [if_pos rfl, List.append_nil]
    refine Eq.trans ?_ (ListCommand.popHead_conserves (count.getD 1) items)
    exact congrArg (· ++ _) hreply

theorem elsewhere_conserves (h : ks.Queues key items) (hkey : key ∉ c.named)
    (hflush : c ≠ .server .flushdb) (client : Client) :
    (c.exec ks client).2.1.Queues key items ∧
      inlet.Conserves key items items ⟨c, CommandError.replyTo (c.exec ks client).1⟩ := by
  have hleft : (c.exec ks client).2.1.Queues key items :=
    h.elsewhere hkey (Command.agree_off hflush ks client)
  refine ⟨hleft, ?_⟩
  have hother {k : Bytes} (values : List Bytes) (hnamed : c.named = [k]) :
      (if k = key then values else []) = [] := by
    rw [hnamed] at hkey
    exact if_neg fun heq => hkey (List.mem_singleton.2 heq.symm)
  have hpushed : (Execution.mk c (CommandError.replyTo (c.exec ks client).1)).pushed key = [] := by
    unfold Execution.pushed
    split
    · next heq => exact hother _ (congrArg Command.named heq)
    · next heq => exact hother _ (congrArg Command.named heq)
    · rfl
  have hpopped : (Execution.mk c (CommandError.replyTo (c.exec ks client).1)).popped key = [] := by
    unfold Execution.popped
    split
    · next heq => exact hother _ (congrArg Command.named heq)
    · next heq => exact hother _ (congrArg Command.named heq)
    · next keys timeout heq =>
      -- The walk leaves the same list as it finds, so it has taken nothing off.
      obtain rfl : c = .lists (.brpop keys timeout) := heq
      obtain ⟨left, hwalked, htaken⟩ := ListCommand.popFirst_conserves keys h
      obtain rfl : left = items := Slot.ofItems_injective (hwalked.symm.trans hleft)
      exact List.append_left_eq_self.1 htaken
    · rfl
  rw [Conserves, hpushed, hpopped, List.append_nil, List.nil_append]

theorem Permits.conserves (hc : Permits inlet key c) (h : ks.Queues key items) (client : Client) :
    ∃ left, (c.exec ks client).2.1.Queues key left ∧
      inlet.Conserves key items left ⟨c, CommandError.replyTo (c.exec ks client).1⟩ := by
  cases hc with
  | push values => exact push_conserves h values client
  | pop count => exact pop_conserves h count client
  | wait hinlet keys timeout =>
    subst hinlet
    obtain ⟨left, hleft, hpopped⟩ := ListCommand.popFirst_conserves keys h
    refine ⟨left, hleft, ?_⟩
    show _ ++ left.reverse = items.reverse ++ []
    rw [List.append_nil, ← hpopped]
    rfl
  | elsewhere hkey hflush => exact ⟨items, elsewhere_conserves h hkey hflush client⟩

/-- Along a history the elements that have gone and those that are there are those that came. -/
theorem history_conserves {ks' : Keyspace} {log : List Execution}
    (hlog : History (inlet.Permits key) ks log ks') (h : ks.Queues key []) :
    ∃ left, ks'.Queues key left ∧
      log.flatMap (·.popped key) ++ inlet.inOrder left = log.flatMap (·.pushed key) := by
  induction hlog with
  | nil => exact ⟨[], h, by cases inlet <;> rfl⟩
  | exec _ hc client ih =>
    obtain ⟨items, hitems, hcame⟩ := ih
    obtain ⟨left, hleft, hconserves⟩ := hc.conserves hitems client
    refine ⟨left, hleft, ?_⟩
    rw [List.flatMap_append, List.flatMap_append, List.flatMap_singleton, List.flatMap_singleton,
      List.append_assoc, hconserves, ← List.append_assoc, hcame]
  | tick _ hlater ih =>
    obtain ⟨left, hleft, hcame⟩ := ih
    exact ⟨left, hleft.tick hlater, hcame⟩
  | mapStats _ f ih => exact ih

end Inlet

/-- Under a key at which nothing is live to begin with, and at which elements are only pushed at one
end and popped at the other, none is lost, none comes twice, and none overtakes another: what has
been popped, as it was replied, and what is there then make up what was pushed. -/
theorem Server.queue_conserved [Glob.Matcher] (inlet : Inlet) (key : Bytes) {s : Server}
    (habsent : s.keyspace.live.get? key = none) (hs : s.Only (inlet.Permits key))
    {events : List Event} (hevents : ∀ event ∈ events, ∀ c ∈ event.command?, inlet.Permits key c) :
    ∃ items, (s.run events).2.keyspace.live.get? key = Slot.ofCollection none items ∧
      (s.run events).1.flatMap (·.popped key) ++ inlet.inOrder items =
        (s.run events).1.flatMap (·.pushed key) :=
  Inlet.history_conserves (history_run Inlet.Permits.timeout hs hevents) habsent

/-- One session waits for an element, another pushes two and pops one in a transaction, and after the
one that waited has got its own a third pushes two more, of which one is popped. -/
theorem Server.queue_conserved_of_three_sessions :
    let words (ws : List String) : Frame := .bulkArray (ws.map Bytes.ofString)
    let id (n : Nat) : SessionId := ⟨n, ""⟩
    let events : List Event := [.begin "", .begin "", .begin "",
      .submit (id 1) (words ["BRPOP", "q", "0"]), .attempt (id 1), .submit (id 2) (words ["MULTI"]),
      .submit (id 2) (words ["LPUSH", "q", "x", "y"]), .submit (id 2) (words ["RPOP", "q"]),
      .attempt (id 1), .submit (id 2) (words ["EXEC"]), .advance 20, .attempt (id 1),
      .submit (id 3) (words ["LPUSH", "q", "z", "w"]), .submit (id 2) (words ["RPOP", "q", "1"])]
    let commands : List Command := [.lists (.brpop [[113]] 0), .transaction .multi,
      .lists (.lpush [113] [[120], [121]]), .lists (.rpop [113] none), .transaction .exec,
      .lists (.lpush [113] [[122], [119]]), .lists (.rpop [113] (some 1))]
    let s : Server := { engine := { maxQueued := 8 } }
    events.filterMap Event.command? = commands ∧ (∀ c ∈ commands, Inlet.head.Permits [113] c) ∧
      s.Only (Inlet.head.Permits [113]) ∧
      (∃ items, (s.run events).2.keyspace.live.get? [113] = Slot.ofCollection none items ∧
        (s.run events).1.flatMap (·.popped [113]) ++ Inlet.head.inOrder items =
          (s.run events).1.flatMap (·.pushed [113])) ∧
      (s.run events).1.flatMap (·.popped [113]) = [[120], [121], [122]] ∧
      (s.run events).2.keyspace.live.get? [113] = some ⟨.list [[119]], none⟩ := by
  intro words id events commands s
  have hread : events.filterMap Event.command? = commands := by decide +kernel
  have hcommands : ∀ c ∈ commands, Inlet.head.Permits [113] c := by
    simp only [commands, List.forall_mem_cons]
    exact ⟨.wait rfl _ _, .elsewhere nofun nofun, .push _, .pop _, .elsewhere nofun nofun, .push _,
      .pop _, nofun⟩
  have hs : s.Only (Inlet.head.Permits [113]) := ⟨nofun, nofun⟩
  have hevents : ∀ event ∈ events, ∀ c ∈ event.command?, Inlet.head.Permits [113] c :=
    fun event hevent c hc => hcommands c (hread ▸ List.mem_filterMap.2 ⟨event, hevent, hc⟩)
  exact ⟨hread, hcommands, hs, queue_conserved .head [113] rfl hs hevents,
    by decide +kernel, by decide +kernel⟩

end RespStore
