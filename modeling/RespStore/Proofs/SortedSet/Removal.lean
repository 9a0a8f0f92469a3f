import RespStore.Proofs.SortedSet.Ranges
import RespStore.Proofs.SortedSet.Stored

/-! What a removal by range takes out: what is listed beforehand, all of it and nothing else. -/
namespace RespStore

namespace SortedSet

variable {z : SortedSet} {m : Bytes} {range : List (Bytes × Binary64)}

/-- What is left of a sorted set without some of its pairs: the others, in the order and with the
scores that they had. -/
structure Without (z : SortedSet) (gone : List (Bytes × Binary64)) (left : SortedSet) : Prop where
  wellFormed : left.WellFormed
  toList_eq : left.toList = z.toList.filter (· ∉ gone)
  perm : (gone ++ left.toList).Perm z.toList
  score?_eq : ∀ m, left.score? m = if m ∈ gone.map (·.1) then none else z.score? m

theorem score?_removeAll (z : SortedSet) (members : List Bytes) (m : Bytes) :
    (z.removeAll members).score? m = if m ∈ members then none else z.score? m := by
  unfold removeAll
  induction members generalizing z with
  | nil => simp
  | cons first rest ih =>
    rw [List.foldl_cons, ih, score?_remove]
    by_cases hrest : m ∈ rest
    · simp [hrest]
    · by_cases hfirst : m = first
      · simp [hfirst]
      · simp [hrest, hfirst]

/-- Takes out the members of what `select` lists, as the removals by rank and by score do. -/
def removeListed (select : SortedSet → List (Bytes × Binary64)) (z : SortedSet) :
    Nat × SortedSet :=
  ((select z).length, z.removeAll ((select z).map (·.1)))

namespace WellFormed

theorem toList_remove (h : z.WellFormed) (m : Bytes) :
    (z.remove m).2.toList = z.toList.filter (·.1 ≠ m) := by
  cases hm : z.score? m with
  | none =>
    have hothers : ∀ p ∈ z.toList, decide (p.1 ≠ m) = true := by
      rintro ⟨k, s⟩ hp
      rw [h.mem_toList_iff] at hp
      rw [decide_eq_true_eq]
      rintro rfl
      rw [hm] at hp
      cases hp
    rw [remove_of_absent hm, List.filter_eq_self.2 hothers]
  | some s =>
    rw [remove_of_present hm, toList, toList, List.filter_map]
    apply congrArg (List.map _)
    apply List.filter_congr
    rintro ⟨t, k⟩ hp
    -- A member is listed once, so its pair is the only one to go.
    have hpair : (t, k) ∈ z.ordered.filter (· ≠ (s, m)) ↔ z.score? k = some t ∧ k ≠ m :=
      h.mem_without hm
    have hscore : z.score? k = some t := h.mem_ordered_iff.1 hp
    rw [List.mem_filter] at hpair
    simpa [hp, hscore] using hpair

theorem toList_removeAll (h : z.WellFormed) (members : List Bytes) :
    (z.removeAll members).toList = z.toList.filter (·.1 ∉ members) := by
  unfold SortedSet.removeAll
  induction members generalizing z with
  | nil => simp
  | cons first rest ih =>
    rw [List.foldl_cons, ih (h.remove first), h.toList_remove, List.filter_filter]
    apply List.filter_congr
    intro p _
    simp [Bool.and_comm]

theorem nodup_toList (h : z.WellFormed) : z.toList.Nodup := h.nodup_members.of_map

/-- Part of a listing goes if its members are taken out. -/
theorem without_of_sublist (h : z.WellFormed) (hrange : range.Sublist z.toList) :
    z.Without range (z.removeAll (range.map (·.1))) := by
  have hlisted : (z.removeAll (range.map (·.1))).toList = z.toList.filter (· ∉ range) := by
    rw [h.toList_removeAll]
    apply List.filter_congr
    intro p hp
    -- No other pair of the listing has the member of one that goes.
    have hmember : p.1 ∈ range.map (·.1) ↔ p ∈ range := by
      constructor
      · intro hmem
        obtain ⟨q, hq, heq⟩ := List.mem_map.1 hmem
        rwa [← List.inj_on_of_nodup_map h.nodup_members (hrange.subset hq) hp heq]
      · exact List.mem_map_of_mem
    simp only [hmember]
  have hgone : range.Perm (z.toList.filter (· ∈ range)) := by
    rw [List.perm_ext_iff_of_nodup (h.nodup_toList.sublist hrange) (h.nodup_toList.filter _)]
    intro p
    have hsub : p ∈ range → p ∈ z.toList := fun hp => hrange.subset hp
    simpa using hsub
  refine ⟨h.removeAll _, hlisted, ?_, z.score?_removeAll _⟩
  have hsplit := List.filter_append_perm (· ∈ range) z.toList
  rw [hlisted]
  simpa using (hgone.append_right _).trans hsplit

end WellFormed

theorem rangeByRank_sublist (z : SortedSet) (start stop : Int) :
    (z.rangeByRank start stop false).Sublist z.toList := by
  unfold rangeByRank
  split
  · exact List.nil_sublist _
  · exact (List.take_sublist _ _).trans (List.drop_sublist _ _)

theorem rangeByScore_sublist (z : SortedSet) (min max : ScoreBound) :
    (z.rangeByScore min max).Sublist z.toList :=
  (List.takeWhile_sublist _).trans (List.dropWhile_sublist _)

theorem Without.rangeByScore_eq_nil {left : SortedSet} {min max : ScoreBound} (h : z.WellFormed)
    (hleft : z.Without (z.rangeByScore min max) left) : left.rangeByScore min max = [] := by
  rw [hleft.wellFormed.rangeByScore_eq, hleft.toList_eq, List.filter_filter,
    List.filter_eq_nil_iff, h.rangeByScore_eq]
  intro p hp hkept
  simp [hp] at hkept

end SortedSet

namespace Keyspace

/-- Of the sorted set under a key some pairs are gone, and the key too if that leaves none. Its
deadline and all other keys are as they were. -/
structure Loses (ks : Keyspace) (key : Bytes) (z : SortedSet) (deadline : Option Nat)
    (gone : List (Bytes × Binary64)) (ks' : Keyspace) : Prop where
  now_eq : ks'.now = ks.now
  live_eq : ∃ left : SortedSet, z.Without gone left ∧
    ks'.live = ks.live.set key (Slot.ofCollection deadline left)
  gone_iff : ks'.live.get? key = none ↔ ∀ p ∈ z.toList, p ∈ gone

end Keyspace

namespace SortedSetCommand

open SortedSet

variable {ks : Keyspace} {key : Bytes} {z : SortedSet} {deadline : Option Nat}

theorem removedBy_of_held (h : ks.live.get? key = Slot.ofCollection deadline z)
    (remove : SortedSet → Nat × SortedSet) (hempty : z.isEmpty = true → remove z = (0, z)) :
    (removedBy ks key remove).1 = .ok (.count (remove z).1) ∧
      (removedBy ks key remove).2.live =
        ks.live.set key (Slot.ofCollection deadline (remove z).2) := by
  have hleaves : Collection.isEmpty z = true → (remove z).2 = z := fun hz => by rw [hempty hz]
  obtain ⟨hresult, hlive⟩ := Keyspace.update_of_held h hleaves
  refine ⟨?_, hlive⟩
  unfold removedBy answer
  rw [hresult]
  cases hz : Collection.isEmpty z with
  | true =>
    rw [hempty hz]
    rfl
  | false => rfl

theorem removedBy_loses (hz : z.WellFormed) (h : ks.live.get? key = Slot.ofCollection deadline z)
    (select : SortedSet → List (Bytes × Binary64)) (hselect : (select z).Sublist z.toList) :
    let taken := removedBy ks key (removeListed select)
    taken.1 = .ok (.count (select z).length) ∧ ks.Loses key z deadline (select z) taken.2 := by
  intro taken
  have hempty (hnone : z.isEmpty = true) : removeListed select z = (0, z) := by
    have hnil : select z = [] := by
      rw [hz.toList_eq_nil_iff.2 hnone] at hselect
      exact List.sublist_nil.1 hselect
    rw [removeListed, hnil]
    rfl
  obtain ⟨hreply, hlive⟩ := removedBy_of_held h _ hempty
  have hwithout : z.Without (select z) (removeListed select z).2 := hz.without_of_sublist hselect
  refine ⟨hreply, ks.now_tryAccess key _, ⟨_, hwithout, hlive⟩, ?_⟩
  have hstored : taken.2.live.get? key = none ↔ (removeListed select z).2.isEmpty = true := by
    rw [hlive, Table.get?_set, if_pos rfl]
    exact Slot.ofCollection_eq_none_iff
  rw [hstored, ← hwithout.wellFormed.toList_eq_nil_iff, hwithout.toList_eq,
    List.filter_eq_nil_iff]
  simp

/-- A command takes out of the sorted set under a key what another would have listed just before,
and replies how many pairs those are. The others are listed after it. -/
def TakesListed [Glob.Matcher] (ks : Keyspace) (key : Bytes) (z : SortedSet) (deadline : Option Nat)
    (client : Client) (list : Bool → SortedSetCommand) (remove : SortedSetCommand) : Prop :=
  ∃ gone : List (Bytes × Binary64),
    (∀ scores, ((Command.sortedSets (list scores)).exec ks client).1 =
      .ok (.bulkArray (listed scores gone))) ∧
    ((Command.sortedSets remove).exec ks client).1 = .ok (.count gone.length) ∧
    ks.Loses key z deadline gone ((Command.sortedSets remove).exec ks client).2.1 ∧
    ∀ scores, ((Command.sortedSets (.zrange key 0 (-1) scores)).exec
      ((Command.sortedSets remove).exec ks client).2.1 client).1 =
        .ok (.bulkArray (listed scores (z.toList.filter (· ∉ gone))))

theorem takesListed [Glob.Matcher] (hz : z.WellFormed)
    (h : ks.live.get? key = Slot.ofCollection deadline z)
    (select : SortedSet → List (Bytes × Binary64)) (hselect : (select z).Sublist z.toList)
    {list : Bool → SortedSetCommand}
    (hlist : ∀ scores, (list scores).exec ks = rangeOf ks key scores select)
    {remove : SortedSetCommand} (hremove : remove.exec ks = removedBy ks key (removeListed select))
    (client : Client) : TakesListed ks key z deadline client list remove := by
  obtain ⟨hreply, hloses⟩ := removedBy_loses hz h select hselect
  rw [← hremove] at hreply hloses
  refine ⟨select z, fun scores => mapError_eq_ok_iff.2 ?_, mapError_eq_ok_iff.2 hreply, hloses,
    fun scores => mapError_eq_ok_iff.2 ?_⟩
  · rw [hlist]
    refine rangeOf_of_holds hz ⟨deadline, h⟩ scores select fun hnil => ?_
    rw [hnil] at hselect
    exact List.sublist_nil.1 hselect
  · obtain ⟨left, hleft, hlive⟩ := hloses.live_eq
    have hheld : (remove.exec ks).2.Holds key left := by
      refine ⟨deadline, ?_⟩
      rw [hlive, Table.get?_set, if_pos rfl]
    have hall : left.rangeByRank (0 : Int64).toInt (-1 : Int64).toInt false =
        z.toList.filter (· ∉ select z) := by
      rw [hleft.wellFormed.rangeByRank_eq, ← hleft.toList_eq]
      exact Span.selected_whole left.toList
    rw [← hall]
    exact rangeOf_of_holds hleft.wellFormed hheld scores _ hleft.wellFormed.rangeByRank_of_nil

end SortedSetCommand

namespace Command
open SortedSet SortedSetCommand

/-- Wherever a server gets to, a removal by rank or by score takes out of a sorted set what the
range lists, and a removal between the same bounds finds nothing more. -/
theorem range_removal_takes_listed [Glob.Matcher] {ks : Keyspace} (hks : ks.Reachable) {key : Bytes}
    {z : SortedSet} {deadline : Option Nat}
    (hz : ks.live.get? key = some ⟨.sortedSet z, deadline⟩) (client : Client) :
    (∀ start stop : Int64, TakesListed ks key z deadline client
      (fun scores => .zrange key start stop scores) (.zremrangebyrank key start stop)) ∧
    ∀ min max : ScoreBound,
      let remove : Command := .sortedSets (.zremrangebyscore key min max)
      let after := (remove.exec ks client).2.1
      TakesListed ks key z deadline client (fun scores => .zrangebyscore key min max scores none)
        (.zremrangebyscore key min max) ∧
      (remove.exec after client).1 = .ok (.count 0) ∧
      (remove.exec after client).2.1.live = after.live := by
  have hwf : z.WellFormed := (hks.built hz).wellFormed
  have hheld : ks.live.get? key = Slot.ofCollection deadline z := by
    have hfilled := hks.filled.get?_live key
    rw [hz] at hfilled ⊢
    exact (Slot.ofCollection_of_filled (α := SortedSet) hfilled).symm
  refine ⟨fun start stop => ?_, fun min max => ?_⟩
  · exact takesListed hwf hheld (·.rangeByRank start.toInt stop.toInt false)
      (z.rangeByRank_sublist start.toInt stop.toInt) (fun _ => rfl) rfl client
  · intro remove after
    have hremove : (SortedSetCommand.zremrangebyscore key min max).exec ks =
        removedBy ks key (removeListed (·.rangeByScore min max)) := rfl
    refine ⟨takesListed hwf hheld _ (z.rangeByScore_sublist min max) (fun _ => rfl) hremove client,
      ?_⟩
    obtain ⟨-, hloses⟩ := removedBy_loses hwf hheld (·.rangeByScore min max)
      (z.rangeByScore_sublist min max)
    obtain ⟨left, hleft, hlive⟩ := hloses.live_eq
    have hafter : after.live.get? key = Slot.ofCollection deadline left := by
      rw [show after.live = _ from hlive, Table.get?_set, if_pos rfl]
    have hnothing : left.removeRangeByScore min max = (0, left) := by
      rw [removeRangeByScore, hleft.rangeByScore_eq_nil hwf]
      rfl
    obtain ⟨hreply, hsame⟩ := removedBy_of_held hafter (·.removeRangeByScore min max)
      fun _ => hnothing
    rw [hnothing] at hreply hsame
    exact ⟨mapError_eq_ok_iff.2 hreply, hsame.trans (Table.set_of_get?_eq hafter)⟩

/-- Of three members the two from zero on go by score, or all by rank, and the key with them. -/
theorem range_removal_of_three :
    let client : Client := { id := 1 }
    let frame (words : List String) : Frame := .bulkArray (words.map Bytes.ofString)
    let add : Command := .sortedSets (.zadd [122] none false
      [(.infinity true, [97]), (.zero, [98]), (.infinity false, [99])])
    let min : ScoreBound := ⟨.zero, false⟩
    let max : ScoreBound := ⟨.infinity false, false⟩
    let ks := (add.exec {} client).2.1
    Command.ofFrame (frame ["ZADD", "z", "-inf", "a", "0", "b", "inf", "c"]) = .ok add ∧
      ks.Reachable ∧ ∃ z, ks.live.get? [122] = some ⟨.sortedSet z, none⟩ ∧
      (∀ start stop : Int64, TakesListed ks [122] z none client
        (fun scores => .zrange [122] start stop scores) (.zremrangebyrank [122] start stop)) ∧
      TakesListed ks [122] z none client
        (fun scores => .zrangebyscore [122] min max scores none)
        (.zremrangebyscore [122] min max) ∧
      ((Command.sortedSets (.zremrangebyscore [122] min max)).exec ks client).1 = .ok (.count 2) ∧
      ((Command.sortedSets (.zremrangebyrank [122] 0 (-1))).exec ks client).2.1.live.get? [122] =
        none := by
  intro client frame add min max ks
  have hadd : ofFrame (frame ["ZADD", "z", "-inf", "a", "0", "b", "inf", "c"]) = .ok add := by
    decide +kernel
  have hks : ks.Reachable := Keyspace.Reachable.start.exec hadd client
  obtain ⟨z, hz⟩ : ∃ z, ks.live.get? [122] = some ⟨.sortedSet z, none⟩ := ⟨_, rfl⟩
  obtain ⟨hrank, hscore⟩ := range_removal_takes_listed hks hz client
  exact ⟨hadd, hks, z, hz, hrank, (hscore min max).1, rfl, rfl⟩

end Command
end RespStore
