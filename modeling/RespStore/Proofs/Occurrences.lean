import Mathlib.Data.List.DropRight
import Mathlib.Data.List.Basic
import RespStore.Glob.Search
import RespStore.Proofs.Holding

/-! Which occurrences of an element a removal takes out, told by their positions. -/
namespace RespStore

section Positions

variable {α : Type}

/-- The elements of a list at all but some positions, in their order. -/
def withoutAt (positions : List Nat) (items : List α) : List α :=
  (items.zipIdx.filter fun x => x.2 ∉ positions).map (·.1)

theorem withoutAt_nil (items : List α) : withoutAt [] items = items := by
  simp [withoutAt]

/-- Whether the last element stays is a matter of its position alone. -/
theorem withoutAt_concat (positions : List Nat) (init : List α) (last : α) :
    withoutAt positions (init ++ [last]) =
      withoutAt positions init ++ if init.length ∈ positions then [] else [last] := by
  unfold withoutAt
  rw [List.zipIdx_append, List.filter_append, List.map_append]
  split
  · next hmem => simp [hmem]
  · next hmem => simp [hmem]

theorem withoutAt_congr {positions positions' : List Nat} {items : List α}
    (h : ∀ i < items.length, i ∈ positions ↔ i ∈ positions') :
    withoutAt positions items = withoutAt positions' items := by
  unfold withoutAt
  apply congrArg (List.map _)
  apply List.filter_congr
  intro x hx
  have hlt : x.2 < items.length := by simpa using List.snd_lt_of_mem_zipIdx hx
  simp only [h x.2 hlt]

theorem lt_length_of_mem_idxsOf [BEq α] {element : α} {items : List α} {i : Nat}
    (h : i ∈ items.idxsOf element) : i < items.length := by
  simpa using List.lt_add_of_mem_idxsOf i h

theorem idxsOf_concat [BEq α] [LawfulBEq α] [DecidableEq α] (element last : α) (init : List α) :
    (init ++ [last]).idxsOf element =
      init.idxsOf element ++ if last = element then [init.length] else [] := by
  rw [List.idxsOf_append, List.idxsOf_cons, List.idxsOf_nil, Nat.zero_add]
  simp only [beq_iff_eq]

theorem withoutAt_append_length (positions : List Nat) (items : List α) :
    withoutAt (positions ++ [items.length]) items = withoutAt positions items := by
  apply withoutAt_congr
  intro i hi
  have hne : i ≠ items.length := Nat.ne_of_lt hi
  simp [hne]

end Positions

namespace ListCommand

variable (element : Bytes)

@[simp] theorem eraseFirst_nil (n : Nat) : eraseFirst element n [] = [] := by
  cases n <;> rfl

/-- Whether an element at the end goes depends on how many have gone before it. -/
theorem eraseFirst_concat (n : Nat) (init : List Bytes) (last : Bytes) :
    eraseFirst element n (init ++ [last]) = eraseFirst element n init ++
      if last = element ∧ init.count element < n then [] else [last] := by
  induction init generalizing n with
  | nil =>
    cases n with
    | zero => simp [eraseFirst]
    | succ n => by_cases h : last = element <;> simp [eraseFirst, h]
  | cons first rest ih =>
    cases n with
    | zero => simp [eraseFirst]
    | succ n =>
      by_cases h : first = element
      · simp [eraseFirst, h, ih]
      · simp [eraseFirst, h, ih]

/-- From the head: the first occurrences go. By induction from the end, where one more element has
no effect on those before it. -/
theorem eraseFirst_eq_withoutAt (n : Nat) (items : List Bytes) :
    eraseFirst element n items = withoutAt ((items.idxsOf element).take n) items := by
  induction items using List.reverseRecOn with
  | nil => exact eraseFirst_nil element n
  | append_singleton init last ih =>
    rw [eraseFirst_concat, ih, withoutAt_concat, idxsOf_concat]
    have hbefore : init.length ∉ (init.idxsOf element).take n := fun hmem =>
      Nat.lt_irrefl _ (lt_length_of_mem_idxsOf (List.mem_of_mem_take hmem))
    by_cases hlast : last = element
    · rw [if_pos hlast, List.take_append, List.length_idxsOf]
      by_cases hn : init.count element < n
      · have hone : [init.length].take (n - init.count element) = [init.length] :=
          List.take_of_length_le (by simp; omega)
        rw [hone, withoutAt_append_length]
        simp [hlast, hn]
      · have hnone : n - init.count element = 0 := by omega
        rw [hnone, List.take_zero, List.append_nil, if_neg hbefore]
        simp [hn]
    · rw [if_neg hlast, List.append_nil, if_neg hbefore]
      simp [hlast]

theorem eraseFirst_reverse_eq_withoutAt (n : Nat) (items : List Bytes) :
    (eraseFirst element n items.reverse).reverse =
      withoutAt ((items.idxsOf element).rtake n) items := by
  induction items using List.reverseRecOn generalizing n with
  | nil =>
    rw [List.reverse_nil, eraseFirst_nil, List.idxsOf_nil, List.rtake_nil]
    rfl
  | append_singleton init last ih =>
    rw [List.reverse_append, List.reverse_singleton, List.singleton_append, withoutAt_concat,
      idxsOf_concat]
    cases n with
    | zero =>
      simp [eraseFirst, withoutAt_nil]
    | succ n =>
      by_cases hlast : last = element
      · rw [eraseFirst, if_pos hlast, if_pos hlast, ih, List.rtake_concat_succ,
          withoutAt_append_length]
        simp
      · have hbefore : init.length ∉ (init.idxsOf element).rtake (n + 1) := fun hmem =>
          Nat.lt_irrefl _ (lt_length_of_mem_idxsOf (List.mem_of_mem_drop hmem))
        rw [eraseFirst, if_neg hlast, if_neg hlast, List.append_nil, if_neg hbefore,
          List.reverse_cons, ih]

theorem length_eraseFirst (n : Nat) (items : List Bytes) :
    (eraseFirst element n items).length + min n (items.count element) = items.length := by
  induction items generalizing n with
  | nil => simp
  | cons first rest ih =>
    cases n with
    | zero => simp [eraseFirst]
    | succ n =>
      by_cases h : first = element
      · have hrest := ih n
        simp only [eraseFirst, h, if_true, List.count_cons_self, List.length_cons]
        omega
      · have hrest := ih (n + 1)
        simp only [eraseFirst, h, if_false, List.count_cons_of_ne h, List.length_cons]
        omega

/-- How many occurrences a removal takes out: all if `count` is zero. -/
def removable (count : Int) (items : List Bytes) : Nat :=
  if count = 0 then items.count element else min count.natAbs (items.count element)

/-- At which positions a removal takes them out: nearest the head or, if `count` is negative, the
tail. -/
def doomed (count : Int) (items : List Bytes) : List Nat :=
  let removed := removable element count items
  if count < 0 then (items.idxsOf element).rtake removed else (items.idxsOf element).take removed

/-- To ask for as many as there are elements is to ask for all. -/
theorem removable_eq_min (count : Int) (items : List Bytes) : removable element count items =
    min (if count = 0 then items.length else count.natAbs) (items.count element) := by
  have hle : items.count element ≤ items.length := List.count_le_length
  unfold removable
  split
  · exact (Nat.min_eq_right hle).symm
  · rfl

theorem removeOccurrences_eq (count : Int) (items : List Bytes) :
    removeOccurrences count element items =
      (removable element count items, withoutAt (doomed element count items) items) := by
  have hpositions : (items.idxsOf element).length = items.count element := List.length_idxsOf
  unfold removeOccurrences doomed
  dsimp only
  rw [removable_eq_min]
  generalize (if count = 0 then items.length else count.natAbs) = limit
  by_cases hcount : count < 0
  · have hlast : (items.idxsOf element).rtake (min limit (items.count element)) =
        (items.idxsOf element).rtake limit := by
      unfold List.rtake
      congr 1
      omega
    have hlength := length_eraseFirst element limit items.reverse
    rw [List.count_reverse, List.length_reverse] at hlength
    rw [if_pos hcount, if_pos hcount, hlast, ← eraseFirst_reverse_eq_withoutAt,
      List.length_reverse, Prod.mk.injEq]
    exact ⟨by omega, rfl⟩
  · have hfirst : (items.idxsOf element).take (min limit (items.count element)) =
        (items.idxsOf element).take limit := by
      rw [← hpositions, ← List.take_eq_take_min]
    have hlength := length_eraseFirst element limit items
    rw [if_neg hcount, if_neg hcount, hfirst, ← eraseFirst_eq_withoutAt, Prod.mk.injEq]
    exact ⟨by omega, rfl⟩

theorem removeOccurrences_neg {count : Int} (h : 0 < count) (items : List Bytes) :
    removeOccurrences (-count) element items =
      ((removeOccurrences count element items.reverse).1,
        (removeOccurrences count element items.reverse).2.reverse) := by
  have hneg : -count < 0 := by omega
  have hpos : ¬ count < 0 := by omega
  have hzero : ¬ count = 0 := by omega
  have hnegZero : ¬ -count = 0 := by omega
  unfold removeOccurrences
  simp only [if_pos hneg, if_neg hpos, if_neg hzero, if_neg hnegZero, Int.natAbs_neg,
    List.length_reverse]

variable {ks : Keyspace} {key : Bytes} {items : List Bytes} {deadline : Option Nat}

theorem lrem_of_found (h : ks.live.get? key = some ⟨.list items, deadline⟩) (count : Int64) :
    let removed := removeOccurrences count.toInt element items
    (exec ks (.lrem key count element)).1 = .ok (.count removed.1) ∧
      (exec ks (.lrem key count element)).2.live =
        ks.live.set key (Slot.ofCollection deadline removed.2) := by
  intro removed
  obtain ⟨hresult, hlive⟩ := Keyspace.update_of_found h (removeOccurrences count.toInt element)
  constructor
  · exact congrArg (Except.map _) hresult
  · exact hlive

end ListCommand

namespace Command
open ListCommand

/-- Of an element of a list, a removal takes out as many occurrences as are asked for, if there are
as many, from the end that the sign of the count tells, and all if the count is zero. Everything
else stays in its order, and the key goes with the last element. -/
theorem nearest_occurrences_removed [Glob.Matcher] {ks : Keyspace} {key : Bytes}
    {items : List Bytes} {deadline : Option Nat}
    (h : ks.live.get? key = some ⟨.list items, deadline⟩)
    (element : Bytes) (client : Client) :
    (∀ count : Int64,
      let removed := removable element count.toInt items
      let left := withoutAt (doomed element count.toInt items) items
      let after := (Command.lists (.lrem key count element)).exec ks client
      after.1 = .ok (.count removed) ∧
        after.2.1.live = ks.live.set key (Slot.ofCollection deadline left) ∧
        (after.2.1.live.get? key = none ↔ left = [])) ∧
    ∀ count : Int64, 0 < count → ∀ (ks' : Keyspace) (deadline' : Option Nat),
      ks'.live.get? key = some ⟨.list items.reverse, deadline'⟩ →
        let after := (Command.lists (.lrem key (-count) element)).exec ks client
        let mirrored := (Command.lists (.lrem key count element)).exec ks' client
        after.1 = mirrored.1 ∧ ∃ left : List Bytes,
          after.2.1.live = ks.live.set key (Slot.ofCollection deadline left.reverse) ∧
          mirrored.2.1.live = ks'.live.set key (Slot.ofCollection deadline' left) := by
  constructor
  · intro count removed left after
    obtain ⟨hreply, hlive⟩ := lrem_of_found element h count
    rw [removeOccurrences_eq] at hreply hlive
    have hstored : after.2.1.live = ks.live.set key (Slot.ofCollection deadline left) := hlive
    refine ⟨mapError_eq_ok_iff.2 hreply, hstored, ?_⟩
    rw [hstored, Table.get?_set, if_pos rfl, Slot.ofCollection_eq_none_iff]
    exact List.isEmpty_iff
  · intro count hcount ks' deadline' h' after mirrored
    obtain ⟨hreply, hlive⟩ := lrem_of_found element h (-count)
    obtain ⟨hreply', hlive'⟩ := lrem_of_found element h' count
    have hpos : 0 < count.toInt := Int64.lt_iff_toInt_lt.1 hcount
    have hneg : (-count).toInt = -count.toInt := by
      have hlt : count.toInt < 2 ^ 63 := count.toInt_lt
      rw [Int64.toInt_neg, Int.bmod_eq_of_le] <;> omega
    rw [hneg, removeOccurrences_neg element hpos] at hreply hlive
    refine ⟨?_, _, hlive, hlive'⟩
    exact (mapError_eq_ok_iff.2 hreply).trans (mapError_eq_ok_iff.2 hreply').symm

/-- Of three occurrences the last two go, or the first two of the reverse, or all if more are asked
for than there are, up to the least count there is. -/
theorem nearest_occurrences_removed_of_three :
    let client : Client := { id := 1 }
    let frame (words : List String) : Frame := .bulkArray (words.map Bytes.ofString)
    let items : List Bytes := [[97], [98], [97], [99], [97]]
    let pushed (items : List Bytes) : Keyspace :=
      ((Command.lists (.rpush [107] items)).exec {} client).2.1
    let remove (count : Int64) : Command := .lists (.lrem [107] count [97])
    let ks := pushed items
    let ks' := pushed items.reverse
    Command.ofFrame (frame ["LREM", "k", "-9223372036854775808", "a"]) =
        .ok (remove Int64.minValue) ∧
      ks.live.get? [107] = some ⟨.list items, none⟩ ∧
      ((remove (-2)).exec ks client).1 = .ok (.count 2) ∧
      ((remove (-2)).exec ks client).2.1.live.get? [107] =
        some ⟨.list [[97], [98], [99]], none⟩ ∧
      ((remove Int64.minValue).exec ks client).1 = .ok (.count 3) ∧
      ((remove Int64.minValue).exec ks client).2.1.live.get? [107] ≠ none ∧
      ks'.live.get? [107] = some ⟨.list items.reverse, none⟩ ∧
      ((remove (-2)).exec ks client).1 = ((remove 2).exec ks' client).1 := by
  intro client frame items pushed remove ks ks'
  have hread : Command.ofFrame (frame ["LREM", "k", "-9223372036854775808", "a"]) =
      .ok (remove Int64.minValue) := by decide +kernel
  have hks : ks.live.get? [107] = some ⟨.list items, none⟩ := by decide +kernel
  have hks' : ks'.live.get? [107] = some ⟨.list items.reverse, none⟩ := by decide +kernel
  obtain ⟨hremoved, hmirrored⟩ := nearest_occurrences_removed hks [97] client
  obtain ⟨htwo, hlive, -⟩ := hremoved (-2)
  obtain ⟨hall, -, hgone⟩ := hremoved Int64.minValue
  refine ⟨hread, hks, htwo, ?_, hall, ?_, hks', (hmirrored 2 (by decide) ks' none hks').1⟩
  · rw [hlive, Table.get?_set, if_pos rfl]
    decide
  · rw [Ne, hgone]
    decide

end Command
end RespStore
