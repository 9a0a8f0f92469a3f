import RespStore.Glob.Search
import RespStore.Proofs.Holding
import RespStore.Proofs.SortedSet
import RespStore.Proofs.Span

/-! What a range of a sorted set lists: by score what lies between the bounds, by rank positions in
the listing from either end. -/
namespace RespStore

section Lists

variable {α : Type} {p : α → Bool} {l : List α}

theorem dropWhile_not_eq_filter (h : l.Pairwise fun a b => p a = true → p b = true) :
    l.dropWhile (fun a => !p a) = l.filter p := by
  induction l with
  | nil => rfl
  | cons a rest ih =>
    obtain ⟨ha, hrest⟩ := List.pairwise_cons.1 h
    by_cases hp : p a = true
    · have hall : ∀ b ∈ a :: rest, p b = true := List.forall_mem_cons.2 ⟨hp, fun b hb => ha b hb hp⟩
      rw [List.dropWhile_cons_of_neg (by simp [hp]), List.filter_eq_self.2 hall]
    · rw [List.dropWhile_cons_of_pos (by simp [hp]), List.filter_cons_of_neg hp]
      exact ih hrest

theorem takeWhile_eq_filter (h : l.Pairwise fun a b => p b = true → p a = true) :
    l.takeWhile p = l.filter p := by
  induction l with
  | nil => rfl
  | cons a rest ih =>
    obtain ⟨ha, hrest⟩ := List.pairwise_cons.1 h
    by_cases hp : p a = true
    · rw [List.takeWhile_cons_of_pos hp, List.filter_cons_of_pos hp, ih hrest]
    · have hnone : ∀ b ∈ rest, ¬ p b = true := fun b hb hpb => hp (ha b hb hpb)
      rw [List.takeWhile_cons_of_neg hp, List.filter_cons_of_neg hp, List.filter_eq_nil_iff.2 hnone]

theorem flatMap_pages (l : List α) (size count : Nat) :
    ((List.range count).flatMap fun k => (l.drop (k * size)).take size) =
      l.take (count * size) := by
  induction count with
  | zero => rw [Nat.zero_mul, List.take_zero, List.range_zero, List.flatMap_nil]
  | succ k ih =>
    rw [List.range_succ, List.flatMap_append, ih, List.flatMap_singleton, Nat.succ_mul,
      List.take_add]

end Lists

namespace ScoreBound

variable {b : ScoreBound} {s t : Binary64}

/-- A number lies between two bounds, each of which it may equal unless the bound is exclusive. -/
def Between (min max : ScoreBound) (score : Binary64) : Prop :=
  (min.value < score ∨ min.exclusive = false ∧ min.value ≤ score) ∧
    (score < max.value ∨ max.exclusive = false ∧ score ≤ max.value)

instance (min max : ScoreBound) (score : Binary64) : Decidable (min.Between max score) :=
  inferInstanceAs (Decidable (_ ∧ _))

theorem le_of_lt (h : s < t) : s ≤ t := Int.le_of_lt h

theorem admitsFromBelow_iff :
    b.admitsFromBelow s = true ↔ b.value < s ∨ b.exclusive = false ∧ b.value ≤ s := by
  unfold admitsFromBelow
  cases b.exclusive with
  | true => simp
  | false => simpa using le_of_lt

theorem admitsFromAbove_iff :
    b.admitsFromAbove s = true ↔ s < b.value ∨ b.exclusive = false ∧ s ≤ b.value := by
  unfold admitsFromAbove
  cases b.exclusive with
  | true => simp
  | false => simpa using le_of_lt

theorem admitsFromBelow_mono (hst : s ≤ t) (hs : b.admitsFromBelow s = true) :
    b.admitsFromBelow t = true := by
  rw [admitsFromBelow_iff] at hs ⊢
  rcases hs with hlt | ⟨hb, hle⟩
  · exact .inl (Int.lt_of_lt_of_le hlt hst)
  · exact .inr ⟨hb, Int.le_trans hle hst⟩

theorem admitsFromAbove_anti (hst : s ≤ t) (ht : b.admitsFromAbove t = true) :
    b.admitsFromAbove s = true := by
  rw [admitsFromAbove_iff] at ht ⊢
  rcases ht with hlt | ⟨hb, hle⟩
  · exact .inl (Int.lt_of_le_of_lt hst hlt)
  · exact .inr ⟨hb, Int.le_trans hst hle⟩

end ScoreBound

namespace SortedSet

variable {z : SortedSet}

theorem ListedBefore.le {a b : Bytes × Binary64} (h : ListedBefore a b) : a.2 ≤ b.2 := by
  rcases h with hlt | ⟨heq, -⟩
  · exact ScoreBound.le_of_lt hlt
  · exact Int.le_of_eq heq

namespace WellFormed

theorem scores_ascending (h : z.WellFormed) : z.toList.Pairwise fun a b => a.2 ≤ b.2 :=
  h.toList_ascending.imp ListedBefore.le

/-- A range by score is a filter of the listing. -/
theorem rangeByScore_eq (h : z.WellFormed) (min max : ScoreBound) :
    z.rangeByScore min max = z.toList.filter fun p => min.Between max p.2 := by
  have hbelow : z.toList.Pairwise fun a b =>
      min.admitsFromBelow a.2 = true → min.admitsFromBelow b.2 = true :=
    h.scores_ascending.imp ScoreBound.admitsFromBelow_mono
  have habove : z.toList.Pairwise fun a b =>
      max.admitsFromAbove b.2 = true → max.admitsFromAbove a.2 = true :=
    h.scores_ascending.imp ScoreBound.admitsFromAbove_anti
  unfold rangeByScore
  rw [dropWhile_not_eq_filter hbelow, takeWhile_eq_filter (habove.filter _), List.filter_filter]
  apply List.filter_congr
  intro p _
  rw [Bool.eq_iff_iff, Bool.and_eq_true, ScoreBound.admitsFromBelow_iff,
    ScoreBound.admitsFromAbove_iff, decide_eq_true_eq, ScoreBound.Between, and_comm]

theorem rangeByRank_eq (h : z.WellFormed) (start stop : Int) :
    z.rangeByRank start stop false = Span.selected z.toList start stop := by
  have hslice := Span.slice_clamp? z.toList start stop
  unfold rangeByRank
  rw [h.size_eq, ← hslice]
  cases Span.clamp? start stop z.toList.length <;> rfl

/-- Ranks from the highest score are ranks from the lowest, negated. -/
theorem rangeByRank_reverse (h : z.WellFormed) (start stop : Int) :
    z.rangeByRank start stop true = (z.rangeByRank (-1 - stop) (-1 - start) false).reverse := by
  unfold rangeByRank
  rw [h.size_eq, Span.clamp?_mirror]
  cases hspan : Span.clamp? start stop z.toList.length with
  | none => rfl
  | some span =>
    obtain ⟨hlt, hstop, -⟩ := Span.selects_of_clamp? hspan
    exact Span.slice_reverse z.toList (Nat.le_of_lt hlt) hstop

theorem toList_eq_nil_iff (h : z.WellFormed) : z.toList = [] ↔ z.isEmpty = true := by
  have hsize : z.scores.toList.length = z.toList.length := h.size_eq
  rw [isEmpty, Table.isEmpty, List.isEmpty_iff, ← List.length_eq_zero_iff,
    ← List.length_eq_zero_iff, hsize]

theorem rangeByRank_of_nil (h : z.WellFormed) {start stop : Int} {reverse : Bool}
    (hnil : z.toList = []) : z.rangeByRank start stop reverse = [] := by
  have hnone : Span.clamp? start stop 0 = none := by simp [Span.clamp?]
  unfold rangeByRank
  rw [h.size_eq, hnil, List.length_nil, hnone]

end WellFormed
end SortedSet

namespace Keyspace

/-- What is live under a key is a given sorted set, or nothing if the set is empty. -/
def Holds (ks : Keyspace) (key : Bytes) (z : SortedSet) : Prop :=
  ∃ deadline, ks.live.get? key = Slot.ofCollection deadline z

end Keyspace

namespace SortedSetCommand

open SortedSet

variable {ks : Keyspace} {key : Bytes} {z : SortedSet}

def listed (scores : Bool) (range : List (Bytes × Binary64)) : List Bytes :=
  if scores then range.flatMap fun (member, score) => [member, score.bytes] else range.map (·.1)

theorem rangeReply_eq (scores : Bool) (range : List (Bytes × Binary64)) :
    rangeReply scores range = .bulkArray (listed scores range) := by
  unfold rangeReply listed Frame.bulkArray
  cases scores with
  | true => simp [List.map_flatMap]
  | false =>
    simp only [Bool.false_eq_true, if_false, List.map_map]
    rw [List.map_eq_flatMap]
    rfl

theorem listed_flatMap {ι : Type} (scores : Bool) (parts : ι → List (Bytes × Binary64))
    (is : List ι) :
    listed scores (is.flatMap parts) = is.flatMap fun i => listed scores (parts i) := by
  unfold listed
  cases scores with
  | true => simp [List.flatMap_assoc]
  | false => simp [List.map_flatMap]

/-- An empty sorted set is not stored, and nothing is listed of it. -/
theorem rangeOf_of_holds (hz : z.WellFormed) (h : ks.Holds key z) (scores : Bool)
    (select : SortedSet → List (Bytes × Binary64)) (hselect : z.toList = [] → select z = []) :
    (rangeOf ks key scores select).1 = .ok (.bulkArray (listed scores (select z))) := by
  obtain ⟨deadline, hlive⟩ := h
  unfold rangeOf answer
  rw [Keyspace.getAs_of_held hlive]
  by_cases hempty : z.isEmpty = true
  · have hnone : select z = [] := hselect (hz.toList_eq_nil_iff.2 hempty)
    have hkept : Collection.isEmpty z = true := hempty
    rw [if_pos hkept, hnone, ← rangeReply_eq]
    rfl
  · have hkept : ¬ Collection.isEmpty z = true := hempty
    rw [if_neg hkept, ← rangeReply_eq]
    rfl

theorem page_eq (offset count : Int64) (range : List (Bytes × Binary64)) :
    page (some ⟨offset, count⟩) range =
      if offset.toInt < 0 then []
      else if count.toInt < 0 then range.drop offset.toInt.toNat
      else (range.drop offset.toInt.toNat).take count.toInt.toNat := rfl

theorem page_nil (limit : Option Limit) : page limit [] = [] := by
  rcases limit with _ | ⟨offset, count⟩
  · rfl
  · rw [page_eq, List.drop_nil, List.take_nil, ite_self, ite_self]

theorem page_of_size {offset size : Int64} {k : Nat} (hsize : 0 < size)
    (hoffset : offset.toInt = k * size.toInt) (range : List (Bytes × Binary64)) :
    page (some ⟨offset, size⟩) range =
      (range.drop (k * size.toInt.toNat)).take size.toInt.toNat := by
  have hpos : 0 < size.toInt := Int64.lt_iff_toInt_lt.1 hsize
  have hnonneg : 0 ≤ (k : Int) * size.toInt := Int.mul_nonneg (Int.natCast_nonneg k) (by omega)
  have hdrop : offset.toInt.toNat = k * size.toInt.toNat := by
    rw [hoffset, Int.toNat_mul (Int.natCast_nonneg k) (by omega), Int.toNat_natCast]
  rw [page_eq, if_neg (by omega), if_neg (by omega), hdrop]

theorem flatMap_page {offset : Nat → Int64} {size : Int64} {count : Nat} (hsize : 0 < size)
    (hoffset : ∀ k < count, (offset k).toInt = k * size.toInt)
    (range : List (Bytes × Binary64)) :
    ((List.range count).flatMap fun k => page (some ⟨offset k, size⟩) range) =
      range.take (count * size.toInt.toNat) := by
  rw [← flatMap_pages]
  apply List.flatMap_congr
  intro k hk
  exact page_of_size hsize (hoffset k (List.mem_range.1 hk)) range

theorem exists_pages {size : Int64} (hsize : 0 < size) {length : Nat}
    (hlength : length < 9223372036854775808) :
    ∃ (count : Nat) (offset : Nat → Int64),
      (∀ k < count, (offset k).toInt = k * size.toInt) ∧ length ≤ count * size.toInt.toNat := by
  have hpos : 0 < size.toInt := Int64.lt_iff_toInt_lt.1 hsize
  obtain ⟨s, hs⟩ : ∃ s : Nat, size.toInt = s := ⟨size.toInt.toNat, by omega⟩
  have hs0 : 0 < s := by omega
  have hdiv : s * (length / s) + length % s = length := Nat.div_add_mod length s
  have hmod : length % s < s := Nat.mod_lt length hs0
  refine ⟨length / s + 1, fun k => Int64.ofInt (k * s), fun k hk => ?_, ?_⟩
  · -- The last page starts within the range, or right after it.
    have hle : k * s ≤ length / s * s := Nat.mul_le_mul_right s (by omega)
    have hbound : ((k * s : Nat) : Int) ≤ length := by
      rw [Nat.mul_comm s] at hdiv
      omega
    rw [hs, Int64.toInt_ofInt_of_le]
    · have hnonneg : 0 ≤ (k : Int) * s := Int.mul_nonneg (by omega) (by omega)
      omega
    · push_cast at hbound
      omega
  · rw [hs, Int.toNat_natCast, Nat.add_mul, Nat.one_mul, Nat.mul_comm]
    omega

end SortedSetCommand

namespace Command
open SortedSet SortedSetCommand

/-- A range by score lists the members whose scores lie between its bounds, in the order of the
listing. The reply to a limit leaves out as many as the offset says and shows as many as the count
says, all that are left if the count is negative and none if the offset is. So pages of one size
show all of the range, each member once. -/
theorem score_range_filters_and_pages [Glob.Matcher] (edits : List Edit) (min max : ScoreBound) :
    let z := edits.foldl edit empty
    let range := z.toList.filter fun p => min.Between max p.2
    z.rangeByScore min max = range ∧
    ∀ (ks : Keyspace) (key : Bytes), ks.Holds key z → ∀ (scores : Bool) (client : Client),
      let replied (limit : Option Limit) :=
        ((Command.sortedSets (.zrangebyscore key min max scores limit)).exec ks client).1
      replied none = .ok (.bulkArray (listed scores range)) ∧
      (∀ offset count : Int64, replied (some ⟨offset, count⟩) = .ok (.bulkArray (listed scores
        (if offset.toInt < 0 then []
          else if count.toInt < 0 then range.drop offset.toInt.toNat
          else (range.drop offset.toInt.toNat).take count.toInt.toNat)))) ∧
      ∀ size : Int64, 0 < size →
        (∀ (count : Nat) (offset : Nat → Int64),
          (∀ k < count, (offset k).toInt = k * size.toInt) →
          ∃ pages : Nat → List Bytes,
            (∀ k < count, replied (some ⟨offset k, size⟩) = .ok (.bulkArray (pages k))) ∧
            (List.range count).flatMap pages =
              listed scores (range.take (count * size.toInt.toNat))) ∧
        (range.length < 9223372036854775808 → ∃ (count : Nat) (offset : Nat → Int64),
          (∀ k < count, (offset k).toInt = k * size.toInt) ∧
          range.take (count * size.toInt.toNat) = range) := by
  intro z range
  have hz : z.WellFormed := wellFormed_foldl_edit edits wellFormed_empty
  have hrange : z.rangeByScore min max = range := hz.rangeByScore_eq min max
  refine ⟨hrange, fun ks key hheld scores client => ?_⟩
  intro replied
  have hreplied (limit : Option Limit) :
      replied limit = .ok (.bulkArray (listed scores (page limit range))) := by
    have hempty (hnil : z.toList = []) : page limit (z.rangeByScore min max) = [] := by
      rw [hz.rangeByScore_eq, hnil, List.filter_nil, page_nil]
    have hreply := rangeOf_of_holds hz hheld scores (page limit <| ·.rangeByScore min max) hempty
    rw [hrange] at hreply
    exact mapError_eq_ok_iff.2 hreply
  refine ⟨hreplied none, fun offset count => hreplied _, fun size hsize => ⟨?_, ?_⟩⟩
  · intro count offset hoffset
    refine ⟨fun k => listed scores (page (some ⟨offset k, size⟩) range), fun k _ => hreplied _, ?_⟩
    rw [← listed_flatMap, flatMap_page hsize hoffset]
  · intro hlength
    obtain ⟨count, offset, hoffset, hle⟩ := exists_pages hsize hlength
    exact ⟨count, offset, hoffset, List.take_of_length_le hle⟩

/-- Of members at both infinities and at a negative zero that is bound as zero, those from zero on
come in pages of two. -/
theorem pages_from_zero_on :
    let edits : List Edit := [.insert [99] (.infinity false), .insert [97] (.signedZero true),
      .insert [100] (.infinity true), .insert [98] (.infinity false)]
    let z := edits.foldl edit empty
    let ks : Keyspace := { entries := Table.empty.insert [122] ⟨.sortedSet z, none⟩ }
    let min : ScoreBound := ⟨.signedZero true, false⟩
    let max : ScoreBound := ⟨.infinity false, false⟩
    let replied (limit : Option Limit) :=
      ((Command.sortedSets (.zrangebyscore [122] min max false limit)).exec ks { id := 1 }).1
    ks.Holds [122] z ∧ replied none = .ok (.bulkArray [[97], [98], [99]]) ∧
      ∃ pages : Nat → List Bytes,
        (∀ k < 2, replied (some ⟨if k = 0 then 0 else 2, 2⟩) = .ok (.bulkArray (pages k))) ∧
        (List.range 2).flatMap pages = [[97], [98], [99]] := by
  intro edits z ks min max replied
  have hheld : ks.Holds [122] z := ⟨none, by decide⟩
  have hoffset : ∀ k : Nat, k < 2 →
      (if k = 0 then 0 else 2 : Int64).toInt = k * (2 : Int64).toInt := by
    decide
  obtain ⟨-, hreplies⟩ := score_range_filters_and_pages edits min max
  obtain ⟨hwhole, -, hpages⟩ := hreplies ks [122] hheld false { id := 1 }
  exact ⟨hheld, hwhole, (hpages 2 (by decide)).1 2 (fun k => if k = 0 then 0 else 2) hoffset⟩

theorem toInt_mirror (i : Int64) : (-1 - i).toInt = -1 - i.toInt := by
  have hlo := Int64.le_toInt i
  have hhi := Int64.toInt_lt i
  have hone : (-1 : Int64).toInt = -1 := rfl
  rw [Int64.toInt_sub, hone, Int.bmod_eq_of_le]
  · omega
  · omega

/-- A range by rank lists the members at the positions from its start to its stop, negative ones
counted from the end, and a range from the highest score is one from the lowest read backwards. So
it is in the replies, which show each member with its own score if scores are asked for. -/
theorem rank_range_selects_and_mirrors [Glob.Matcher] (edits : List Edit) (start stop : Int64) :
    let z := edits.foldl edit empty
    let range := Span.selected z.toList start.toInt stop.toInt
    let mirrored := Span.selected z.toList (-1 - stop.toInt) (-1 - start.toInt)
    z.rangeByRank start.toInt stop.toInt false = range ∧
    z.rangeByRank start.toInt stop.toInt true =
      (z.rangeByRank (-1 - stop.toInt) (-1 - start.toInt) false).reverse ∧
    z.rangeByRank (-1 - stop.toInt) (-1 - start.toInt) false = mirrored ∧
    (∀ p ∈ z.toList, z.score? p.1 = some p.2) ∧
    ∀ (ks : Keyspace) (key : Bytes), ks.Holds key z → ∀ (scores : Bool) (client : Client),
      let replied (c : SortedSetCommand) := ((Command.sortedSets c).exec ks client).1
      replied (.zrange key start stop scores) = .ok (.bulkArray (listed scores range)) ∧
      replied (.zrevrange key start stop scores) =
        .ok (.bulkArray (listed scores mirrored.reverse)) ∧
      replied (.zrange key (-1 - stop) (-1 - start) scores) =
        .ok (.bulkArray (listed scores mirrored)) := by
  intro z range mirrored
  have hz : z.WellFormed := wellFormed_foldl_edit edits wellFormed_empty
  have hforward (first last : Int) : z.rangeByRank first last false =
      Span.selected z.toList first last := hz.rangeByRank_eq first last
  have hbackward := hz.rangeByRank_reverse start.toInt stop.toInt
  refine ⟨hforward _ _, hbackward, hforward _ _, fun p hp => hz.mem_toList_iff.1 hp, ?_⟩
  rw [hforward] at hbackward
  intro ks key hheld scores client replied
  have hreplied {first last : Int64} {reverse : Bool} {shown : List (Bytes × Binary64)}
      (hshown : z.rangeByRank first.toInt last.toInt reverse = shown) :
      (rangeOf ks key scores (·.rangeByRank first.toInt last.toInt reverse)).1.mapError
        CommandError.store = .ok (.bulkArray (listed scores shown)) := by
    rw [← hshown]
    exact mapError_eq_ok_iff.2 (rangeOf_of_holds hz hheld scores _ hz.rangeByRank_of_nil)
  refine ⟨hreplied (hforward _ _), hreplied hbackward, hreplied ?_⟩
  rw [toInt_mirror, toInt_mirror]
  exact hforward _ _

/-- Of three members the two highest are read backwards, however far the range goes on. -/
theorem two_highest_of_three :
    let edits : List Edit := [.insert [99] (.infinity false), .insert [97] (.signedZero true),
      .insert [98] (.infinity false)]
    let z := edits.foldl edit empty
    let ks : Keyspace := { entries := Table.empty.insert [122] ⟨.sortedSet z, none⟩ }
    let replied (c : SortedSetCommand) := ((Command.sortedSets c).exec ks { id := 1 }).1
    let inf := Bytes.ofString "inf"
    ks.Holds [122] z ∧
      replied (.zrevrange [122] Int64.minValue 1 true) =
        .ok (.bulkArray [[99], inf, [98], inf]) ∧
      replied (.zrange [122] (-2) Int64.maxValue true) =
        .ok (.bulkArray [[98], inf, [99], inf]) := by
  intro edits z ks replied inf
  have hheld : ks.Holds [122] z := ⟨none, by decide⟩
  obtain ⟨-, -, -, -, hreplies⟩ := rank_range_selects_and_mirrors edits Int64.minValue 1
  obtain ⟨-, hreversed, hmirrored⟩ := hreplies ks [122] hheld true { id := 1 }
  exact ⟨hheld, hreversed, hmirrored⟩

end Command
end RespStore
