import RespStore.Proofs.Bits
import RespStore.Proofs.SortedSet.Ranges
import RespStore.Proofs.SortedSet.Stored
import RespStore.Proofs.Span

/-! Index ranges in 64-bit words, where a sum may overflow and a slice may reach past what it is
taken from. None of this happens. -/
namespace RespStore

namespace Span
namespace Words

/-- What stops the arithmetic of indices, or a slice at the positions that come of it. -/
inductive Fault where
  | overflow
  | outside
  deriving DecidableEq, Repr

def checked (n : Int) : Except Fault Int64 :=
  if Int64.minValue.toInt ≤ n ∧ n ≤ Int64.maxValue.toInt then .ok (Int64.ofInt n)
  else .error .overflow

def plus (a b : Int64) : Except Fault Int64 := checked (a.toInt + b.toInt)

def minus (a b : Int64) : Except Fault Int64 := checked (a.toInt - b.toInt)

/-- The sum, or the word that is nearest to it. -/
def saturatingPlus (a b : Int64) : Int64 :=
  Int64.ofInt (max Int64.minValue.toInt (min (a.toInt + b.toInt) Int64.maxValue.toInt))

/-- The number of positions, as a count of 64 bits without a sign. -/
def times (a b : Nat) : Except Fault Nat :=
  if a * b < Nat.pow 2 64 then .ok (a * b) else .error .overflow

def resolve (index length : Int64) : Int64 :=
  if index < 0 then saturatingPlus length index else index

def between (first last : Int64) : Except Fault Span := do
  let stop ← plus last 1
  .ok ⟨first.toUInt64.toNat, stop.toUInt64.toNat⟩

/-- As `Span.clamp?`, with a word for each of its numbers. -/
def clamp? (start stop : Int64) (length : Nat) : Except Fault (Option Span) :=
  let length := Int64.ofNat length
  if length = 0 then .ok none
  else do
    let first := max (resolve start length) 0
    let last := min (resolve stop length) (← minus length 1)
    if length ≤ first ∨ last < 0 ∨ last < first then .ok none
    else .ok (some (← between first last))

/-- As `Span.clampBytes?`, with a word for each of its numbers. -/
def clampBytes? (start stop : Int64) (length : Nat) : Except Fault (Option Span) :=
  if start < 0 ∧ stop < 0 ∧ stop < start then .ok none
  else do
    let length := Int64.ofNat length
    let first := max (resolve start length) 0
    let last := min (max (resolve stop length) 0) (← minus length 1)
    if length = 0 ∨ last < first then .ok none
    else .ok (some (← between first last))

/-- The part of a list at the positions of a span, all of which the list has to have. -/
def cut {α : Type} (xs : List α) : Option Span → Except Fault (List α)
  | none => .ok []
  | some s => if s.start ≤ s.stop ∧ s.stop ≤ xs.length then .ok (s.slice xs) else .error .outside

section Arithmetic

theorem toInt_max (a b : Int64) : (max a b).toInt = max a.toInt b.toInt := by
  simp only [Max.max, Int64.le_iff_toInt_le]
  split <;> rfl

theorem toInt_min (a b : Int64) : (min a b).toInt = min a.toInt b.toInt := by
  simp only [Min.min, Int64.le_iff_toInt_le]
  split <;> rfl

theorem toNat_toUInt64 {a : Int64} (h : 0 ≤ a.toInt) : a.toUInt64.toNat = a.toInt.toNat :=
  Int64.toNat_toUInt64_of_le (Int64.le_iff_toInt_le.2 h)

theorem checked_eq_ok {n : Int} (hlo : -9223372036854775808 ≤ n) (hhi : n < 9223372036854775808) :
    checked n = .ok (Int64.ofInt n) ∧ (Int64.ofInt n).toInt = n := by
  have hmin : Int64.minValue.toInt = -9223372036854775808 := rfl
  have hmax : Int64.maxValue.toInt = 9223372036854775807 := rfl
  have hrange : Int64.minValue.toInt ≤ n ∧ n ≤ Int64.maxValue.toInt := by omega
  exact ⟨if_pos hrange, Int64.toInt_ofInt_of_le hlo hhi⟩

theorem plus_eq_saturatingPlus {a b : Int64} (hlo : -9223372036854775808 ≤ a.toInt + b.toInt)
    (hhi : a.toInt + b.toInt < 9223372036854775808) :
    plus a b = .ok (saturatingPlus a b) ∧ (saturatingPlus a b).toInt = a.toInt + b.toInt := by
  have hmin : Int64.minValue.toInt = -9223372036854775808 := rfl
  have hmax : Int64.maxValue.toInt = 9223372036854775807 := rfl
  have hnearest : max Int64.minValue.toInt (min (a.toInt + b.toInt) Int64.maxValue.toInt) =
      a.toInt + b.toInt := by
    omega
  have hsaturating : saturatingPlus a b = Int64.ofInt (a.toInt + b.toInt) := by
    rw [saturatingPlus, hnearest]
  rw [hsaturating]
  exact checked_eq_ok hlo hhi

theorem between_eq_ok {first last : Int64} (hfirst : 0 ≤ first.toInt) (hlast : 0 ≤ last.toInt)
    (hhi : last.toInt + 1 < 9223372036854775808) :
    between first last = .ok ⟨first.toInt.toNat, (last.toInt + 1).toNat⟩ := by
  have hone : (1 : Int64).toInt = 1 := rfl
  obtain ⟨hstop, hexact⟩ := plus_eq_saturatingPlus (b := 1) (by omega) hhi
  rw [hone] at hexact
  unfold between
  rw [hstop]
  simp only [bind, Except.bind]
  rw [toNat_toUInt64 hfirst, toNat_toUInt64 (by omega), hexact]

end Arithmetic

section Lengths

variable {length : Nat} (h : length < 9223372036854775808)
include h

theorem ofNat_eq_zero_iff : Int64.ofNat length = 0 ↔ length = 0 := by
  have hzero : (0 : Int64).toInt = 0 := rfl
  rw [← Int64.toInt_inj, Int64.toInt_ofNat_of_lt h, hzero]
  omega

theorem plus_length {index : Int64} (hneg : index < 0) :
    plus (Int64.ofNat length) index = .ok (saturatingPlus (Int64.ofNat length) index) ∧
      (saturatingPlus (Int64.ofNat length) index).toInt = length + index.toInt := by
  have hindex : index.toInt < 0 := Int64.lt_iff_toInt_lt.1 hneg
  have hlo := Int64.le_toInt index
  have hlength := Int64.toInt_ofNat_of_lt h
  rw [← hlength]
  exact plus_eq_saturatingPlus (by omega) (by omega)

theorem toInt_resolve (index : Int64) :
    (resolve index (Int64.ofNat length)).toInt = Span.resolve index.toInt length := by
  unfold resolve Span.resolve
  by_cases hneg : index < 0
  · have hneg' : index.toInt < 0 := Int64.lt_iff_toInt_lt.1 hneg
    rw [if_pos hneg, if_pos hneg', (plus_length h hneg).2]
  · have hneg' : ¬ index.toInt < 0 := fun hlt => hneg (Int64.lt_iff_toInt_lt.2 hlt)
    rw [if_neg hneg, if_neg hneg']

theorem minus_length :
    ∃ last : Int64, minus (Int64.ofNat length) 1 = .ok last ∧ last.toInt = length - 1 := by
  have hone : (1 : Int64).toInt = 1 := rfl
  have hlength := Int64.toInt_ofNat_of_lt h
  obtain ⟨hlast, hexact⟩ := checked_eq_ok (n := length - 1) (by omega) (by omega)
  refine ⟨Int64.ofInt (length - 1), ?_, hexact⟩
  rw [minus, hlength, hone, hlast]

theorem between_clamped (first : Int64) {stop last : Int64} (hlast : last.toInt = length - 1)
    (hstop : 0 ≤ min stop.toInt (length - 1)) :
    between (max first 0) (min stop last) =
      .ok ⟨(max first.toInt 0).toNat, (min stop.toInt (length - 1) + 1).toNat⟩ := by
  have hzero : (0 : Int64).toInt = 0 := rfl
  have hfirst : (max first 0).toInt = max first.toInt 0 := by rw [toInt_max, hzero]
  have hend : (min stop last).toInt = min stop.toInt (length - 1) := by rw [toInt_min, hlast]
  rw [← hfirst, ← hend]
  apply between_eq_ok
  · omega
  · omega
  · omega

theorem clamp?_eq (start stop : Int64) :
    clamp? start stop length = .ok (Span.clamp? start.toInt stop.toInt length) := by
  have hzero : (0 : Int64).toInt = 0 := rfl
  obtain ⟨last, hminus, hlast⟩ := minus_length h
  unfold clamp? Span.clamp?
  rw [← toInt_resolve h, ← toInt_resolve h]
  simp only [hminus, bind, Except.bind, ofNat_eq_zero_iff h, Int64.le_iff_toInt_le,
    Int64.lt_iff_toInt_lt, toInt_max, toInt_min, hzero, Int64.toInt_ofNat_of_lt h, hlast]
  -- Where there are positions, words are clamped to the last of them before one is added.
  by_cases hnil : length = 0
  · rw [if_pos hnil, if_pos (.inl hnil)]
  · rw [if_neg hnil]
    split
    · next hnone => rw [if_pos (.inr hnone)]
    · next hsome =>
      have hstop : 0 ≤ min (resolve stop (Int64.ofNat length)).toInt (length - 1) := by omega
      rw [if_neg (by omega), between_clamped h _ hlast hstop]

theorem clampBytes?_eq (start stop : Int64) :
    clampBytes? start stop length = .ok (Span.clampBytes? start.toInt stop.toInt length) := by
  have hzero : (0 : Int64).toInt = 0 := rfl
  obtain ⟨last, hminus, hlast⟩ := minus_length h
  unfold clampBytes? Span.clampBytes?
  rw [← toInt_resolve h, ← toInt_resolve h]
  simp only [hminus, bind, Except.bind, ofNat_eq_zero_iff h, Int64.lt_iff_toInt_lt, toInt_max,
    toInt_min, hzero, hlast]
  split
  · rfl
  · split
    · rfl
    · next hsome =>
      have hend : (max (resolve stop (Int64.ofNat length)) 0).toInt =
          max (resolve stop (Int64.ofNat length)).toInt 0 := by
        rw [toInt_max, hzero]
      rw [between_clamped h _ hlast (by omega), hend]

end Lengths

theorem cut_eq_ok {α : Type} {xs : List α} {found : Option Span}
    (h : ∀ s ∈ found, s.start < s.stop ∧ s.stop ≤ xs.length) :
    cut xs found = .ok (found.elim [] (·.slice xs)) := by
  cases found with
  | none => rfl
  | some s =>
    obtain ⟨hlt, hstop⟩ := h s rfl
    exact if_pos ⟨Nat.le_of_lt hlt, hstop⟩

end Words

/-- The two resolutions differ where the end comes before the first position and the start does not
come after it. -/
theorem clampBytes?_eq_clamp? (start stop : Int) (length : Nat) :
    clampBytes? start stop length =
      if 0 < length ∧ resolve stop length < 0 ∧ resolve start length ≤ 0 ∧
        ¬ (start < 0 ∧ stop < 0 ∧ stop < start) then some ⟨0, 1⟩
      else clamp? start stop length := by
  have horder : start < 0 ∧ stop < 0 ∧ stop < start →
      resolve stop length < resolve start length := by
    rintro ⟨hstart, hstop, hlt⟩
    rw [resolve, resolve, if_pos hstart, if_pos hstop]
    omega
  unfold clampBytes? clamp?
  -- From here on the indices count from the first position.
  generalize resolve start length = s at horder ⊢
  generalize resolve stop length = e at horder ⊢
  dsimp only
  by_cases hout : start < 0 ∧ stop < 0 ∧ stop < start
  · have hlt := horder hout
    rw [if_pos hout, if_neg (by simp [hout]), if_pos (by omega)]
  · rw [if_neg hout]
    by_cases hfirst : 0 < length ∧ e < 0 ∧ s ≤ 0
    · obtain ⟨hlength, he, hs⟩ := hfirst
      have hstart : max s 0 = 0 := by omega
      have hstop : min (max e 0) ((length : Int) - 1) = 0 := by omega
      rw [if_neg (by omega), if_pos ⟨hlength, he, hs, hout⟩, hstart, hstop]
      rfl
    · have hsame : ¬ (0 < length ∧ e < 0 ∧ s ≤ 0 ∧ ¬ (start < 0 ∧ stop < 0 ∧ stop < start)) :=
        fun hall => hfirst ⟨hall.1, hall.2.1, hall.2.2.1⟩
      rw [if_neg hsame]
      by_cases hnone : length = 0 ∨ min (max e 0) ((length : Int) - 1) < max s 0
      · rw [if_pos hnone, if_pos (by omega)]
      · have hstop : max e 0 = e := by omega
        rw [if_neg hnone, if_neg (by omega), hstop]

end Span

inductive RangeCommand where
  | getrange
  | bitcount (unit : BitUnit)
  | lrange
  | zrange (scores : Bool)
  | zrevrange (scores : Bool)
  | zremrangebyrank
  deriving DecidableEq, Repr

namespace RangeCommand

open Span.Words

def command (key : Bytes) (start stop : Int64) : RangeCommand → Command
  | .getrange => .strings (.getrange key start stop)
  | .bitcount unit => .strings (.bitcount key (some ⟨start, stop, unit⟩))
  | .lrange => .lists (.lrange key start stop)
  | .zrange scores => .sortedSets (.zrange key start stop scores)
  | .zrevrange scores => .sortedSets (.zrevrange key start stop scores)
  | .zremrangebyrank => .sortedSets (.zremrangebyrank key start stop)

/-- How many positions a value has for the indices, if it is of the type that is asked for. -/
def positions? : RangeCommand → Value → Option Nat
  | .getrange, .string data | .bitcount .byte, .string data => some data.length
  | .bitcount .bit, .string data => some (data.length * 8)
  | .lrange, .list items => some items.length
  | .zrange _, .sortedSet z | .zrevrange _, .sortedSet z | .zremrangebyrank, .sortedSet z =>
    some z.size
  | _, _ => none

/-- The reply to a value of the type that is asked for, with words for the indices and with nothing
taken from beyond the value. -/
def reply? (start stop : Int64) : RangeCommand → Value → Option (Except Fault Frame)
  | .getrange, .string data => some do
    .ok (.bulk (← cut data (← clampBytes? start stop data.length)))
  | .bitcount .byte, .string data => some do
    let part ← cut data (← clampBytes? start stop data.length)
    .ok (.count ((Bits.ofBytes part).count true))
  | .bitcount .bit, .string data => some do
    let part ← cut (Bits.ofBytes data) (← clampBytes? start stop (← times data.length 8))
    .ok (.count (part.count true))
  | .lrange, .list items => some do
    .ok (.bulkArray (← cut items (← clamp? start stop items.length)))
  | .zrange scores, .sortedSet z => some do
    .ok (SortedSetCommand.rangeReply scores (← cut z.toList (← clamp? start stop z.size)))
  | .zrevrange scores, .sortedSet z => some do
    .ok (SortedSetCommand.rangeReply scores (← cut z.toList.reverse (← clamp? start stop z.size)))
  | .zremrangebyrank, .sortedSet z => some do
    .ok (.count (← cut z.toList (← clamp? start stop z.size)).length)
  | _, _ => none

end RangeCommand

/-! What the commands reply, as a part at the span that their indices are resolved to. -/

section Parts

variable (start stop : Int64)

theorem StringCommand.substring_eq (data : Bytes) : substring start stop data =
    (Span.clampBytes? start.toInt stop.toInt data.length).elim [] (·.slice data) := by
  unfold substring
  cases Span.clampBytes? start.toInt stop.toInt data.length <;> rfl

theorem StringCommand.countBits_byte_eq (data : Bytes) :
    countBits (some ⟨start, stop, .byte⟩) data =
      (Bits.ofBytes ((Span.clampBytes? start.toInt stop.toInt data.length).elim []
        (·.slice data))).count true := by
  simp only [countBits]
  cases Span.clampBytes? start.toInt stop.toInt data.length <;> rfl

theorem StringCommand.countBits_bit_eq (data : Bytes) :
    countBits (some ⟨start, stop, .bit⟩) data =
      ((Span.clampBytes? start.toInt stop.toInt (data.length * 8)).elim []
        (·.slice (Bits.ofBytes data))).count true := by
  simp only [countBits]
  cases Span.clampBytes? start.toInt stop.toInt (data.length * 8) <;> rfl

theorem ListCommand.part_eq (items : List Bytes) :
    ((Span.clamp? start.toInt stop.toInt items.length).map (·.slice items)).getD [] =
      (Span.clamp? start.toInt stop.toInt items.length).elim [] (·.slice items) := by
  cases Span.clamp? start.toInt stop.toInt items.length <;> rfl

theorem SortedSet.rangeByRank_eq_elim (z : SortedSet) (reverse : Bool) :
    z.rangeByRank start.toInt stop.toInt reverse =
      (Span.clamp? start.toInt stop.toInt z.size).elim []
        (·.slice (if reverse then z.toList.reverse else z.toList)) := by
  unfold rangeByRank
  cases Span.clamp? start.toInt stop.toInt z.size <;> rfl

end Parts

namespace RangeCommand

open Span.Words Keyspace

section Taking

variable {α β : Type} (start stop : Int64) {xs : List α} {length : Nat}
  (hlength : length < 9223372036854775808) (hxs : xs.length = length)
  (reply : List α → Except Fault β)
include hlength hxs

theorem cut_clamp? : (clamp? start stop length >>= fun s => cut xs s >>= reply) =
    reply ((Span.clamp? start.toInt stop.toInt length).elim [] (·.slice xs)) := by
  have hwithin : ∀ s ∈ Span.clamp? start.toInt stop.toInt length,
      s.start < s.stop ∧ s.stop ≤ xs.length := by
    intro s hs
    obtain ⟨hlt, hstop, -⟩ := Span.selects_of_clamp? hs
    rw [hxs]
    exact ⟨hlt, hstop⟩
  simp only [clamp?_eq hlength, bind, Except.bind, cut_eq_ok hwithin]

theorem cut_clampBytes? : (clampBytes? start stop length >>= fun s => cut xs s >>= reply) =
    reply ((Span.clampBytes? start.toInt stop.toInt length).elim [] (·.slice xs)) := by
  have hwithin : ∀ s ∈ Span.clampBytes? start.toInt stop.toInt length,
      s.start < s.stop ∧ s.stop ≤ xs.length := by
    intro s hs
    rw [hxs]
    exact Span.bounds_of_clampBytes? hs
  simp only [clampBytes?_eq hlength, bind, Except.bind, cut_eq_ok hwithin]

end Taking

variable {ks : Keyspace} {key : Bytes} {v : Value}

theorem getAs_of_held {α : Type} [Collection α] {c : α}
    (h : ks.held key = some (Collection.toValue c)) : (ks.getAs α key).1 = .ok (some c) := by
  obtain ⟨⟨value, deadline⟩, hlive, rfl⟩ := Option.map_eq_some_iff.1 h
  rw [getAs_fst, hlive, Slot.collection?_toValue]

theorem wellFormed_of_held [Glob.Matcher] {z : SortedSet} (hks : ks.Reachable)
    (h : ks.held key = some (.sortedSet z)) : z.WellFormed := by
  obtain ⟨⟨value, deadline⟩, hlive, rfl⟩ := Option.map_eq_some_iff.1 h
  exact (hks.built hlive).wellFormed

theorem rangeOf_of_held {z : SortedSet} (h : ks.held key = some (.sortedSet z)) (scores : Bool)
    (select : SortedSet → List (Bytes × Binary64)) :
    (SortedSetCommand.rangeOf ks key scores select).1 =
      .ok (SortedSetCommand.rangeReply scores (select z)) := by
  unfold SortedSetCommand.rangeOf answer
  rw [getAs_of_held h]
  rfl

theorem removedBy_of_held {z : SortedSet} (h : ks.held key = some (.sortedSet z))
    (remove : SortedSet → Nat × SortedSet) :
    (SortedSetCommand.removedBy ks key remove).1 = .ok (.count (remove z).1) := by
  obtain ⟨⟨value, deadline⟩, hlive, rfl⟩ := Option.map_eq_some_iff.1 h
  unfold SortedSetCommand.removedBy answer
  rw [(update_of_found hlive remove).1]
  rfl

/-- By cases on the command, and on the value, which is of its type. -/
theorem exists_reply [Glob.Matcher] (hks : ks.Reachable) (hv : ks.held key = some v)
    (start stop : Int64) (c : RangeCommand) {n : Nat}
    (hn : c.positions? v = some n) (hlt : n < 9223372036854775808)
    (client : Client) :
    ∃ frame, c.reply? start stop v = some (.ok frame) ∧
      ((c.command key start stop).exec ks client).1 = .ok frame := by
  unfold positions? at hn
  unfold reply? command
  split at hn
  · next data =>
    cases hn
    have hfound : (ks.getString key).1 = .ok (some data) := ks.getString_of_held key hv
    refine ⟨_, congrArg some (cut_clampBytes? start stop hlt rfl _), mapError_eq_ok_iff.2 ?_⟩
    rw [← StringCommand.substring_eq]
    exact congrArg (Except.map _) hfound
  · next data =>
    cases hn
    have hfound : (ks.getString key).1 = .ok (some data) := ks.getString_of_held key hv
    refine ⟨_, congrArg some (cut_clampBytes? start stop hlt rfl _), mapError_eq_ok_iff.2 ?_⟩
    rw [← StringCommand.countBits_byte_eq]
    exact congrArg (Except.map _) hfound
  · next data =>
    cases hn
    have hfound : (ks.getString key).1 = .ok (some data) := ks.getString_of_held key hv
    have hbits : (Bits.ofBytes data).length = data.length * 8 := by
      rw [Bits.length_ofBytes, Nat.mul_comm]
    have hroom : data.length * 8 < Nat.pow 2 64 := Nat.lt_trans hlt (by decide)
    have htimes : times data.length 8 = .ok (data.length * 8) := if_pos hroom
    simp only [htimes]
    refine ⟨_, congrArg some (cut_clampBytes? start stop hlt hbits _), mapError_eq_ok_iff.2 ?_⟩
    rw [← StringCommand.countBits_bit_eq]
    exact congrArg (Except.map _) hfound
  · next items =>
    cases hn
    have hfound : (ks.getAs (List Bytes) key).1 = .ok (some items) := getAs_of_held hv
    refine ⟨_, congrArg some (cut_clamp? start stop hlt rfl _), mapError_eq_ok_iff.2 ?_⟩
    rw [← ListCommand.part_eq]
    exact congrArg (Except.map _) hfound
  · next scores z =>
    cases hn
    have hsize : z.toList.length = z.size := (wellFormed_of_held hks hv).size_eq.symm
    refine ⟨_, congrArg some (cut_clamp? start stop hlt hsize _), mapError_eq_ok_iff.2 ?_⟩
    have hreply := rangeOf_of_held hv scores (·.rangeByRank start.toInt stop.toInt false)
    rwa [SortedSet.rangeByRank_eq_elim] at hreply
  · next scores z =>
    cases hn
    have hsize : z.toList.reverse.length = z.size := by
      rw [List.length_reverse, (wellFormed_of_held hks hv).size_eq]
    refine ⟨_, congrArg some (cut_clamp? start stop hlt hsize _), mapError_eq_ok_iff.2 ?_⟩
    have hreply := rangeOf_of_held hv scores (·.rangeByRank start.toInt stop.toInt true)
    rwa [SortedSet.rangeByRank_eq_elim] at hreply
  · next z =>
    cases hn
    have hsize : z.toList.length = z.size := (wellFormed_of_held hks hv).size_eq.symm
    refine ⟨_, congrArg some (cut_clamp? start stop hlt hsize _), mapError_eq_ok_iff.2 ?_⟩
    have hreply := removedBy_of_held hv (·.removeRangeByRank start.toInt stop.toInt)
    simp only [SortedSet.removeRangeByRank] at hreply
    rwa [SortedSet.rangeByRank_eq_elim] at hreply
  · cases hn

end RangeCommand

namespace Span
open Words

/-- Words are as good as integers for any two indices and any length that they can name: no sum of
theirs overflows, and both resolutions come to what exact arithmetic comes to. That is none if no
position is selected, and otherwise the span of those that are, except that the resolution for bytes
selects the first where the end comes before it and the start does not come after it, unless both
indices are negative and out of order. So what a command takes of a value that is held lies within
it, and the reply is what is taken. -/
theorem ranges_in_words_are_exact [Glob.Matcher] (start stop : Int64) :
    (∀ length < Nat.pow 2 63,
      let s : Int := if start.toInt < 0 then length + start.toInt else start.toInt
      let e : Int := if stop.toInt < 0 then length + stop.toInt else stop.toInt
      let found := Span.clamp? start.toInt stop.toInt length
      let foundBytes := Span.clampBytes? start.toInt stop.toInt length
      Words.clamp? start stop length = .ok found ∧
      Words.clampBytes? start stop length = .ok foundBytes ∧
      (∀ index < 0,
        plus (Int64.ofNat length) index = .ok (saturatingPlus (Int64.ofNat length) index)) ∧
      (found = none ↔ ∀ i < length, ¬ (s ≤ i ∧ i ≤ e)) ∧
      (∀ span ∈ found, span.start < span.stop ∧ span.stop ≤ length ∧
        ∀ i, span.start ≤ i ∧ i < span.stop ↔ i < length ∧ s ≤ i ∧ i ≤ e) ∧
      foundBytes =
        if 0 < length ∧ e < 0 ∧ s ≤ 0 ∧
          ¬ (start.toInt < 0 ∧ stop.toInt < 0 ∧ stop.toInt < start.toInt) then some ⟨0, 1⟩
        else found) ∧
    ∀ ks : Keyspace, ks.Reachable → ∀ (key : Bytes) (v : Value), ks.held key = some v →
      ∀ (c : RangeCommand) (n : Nat), c.positions? v = some n → n < Nat.pow 2 63 →
        ∀ client : Client, ∃ frame, c.reply? start stop v = some (.ok frame) ∧
          ((c.command key start stop).exec ks client).1 = .ok frame := by
  constructor
  · intro length hlength s e found foundBytes
    refine ⟨clamp?_eq hlength start stop, clampBytes?_eq hlength start stop,
      fun index hneg => (plus_length hlength hneg).1, clamp?_eq_none_iff, ?_,
      clampBytes?_eq_clamp? start.toInt stop.toInt length⟩
    intro span hspan
    obtain ⟨hlt, hstop, hselects⟩ := selects_of_clamp? hspan
    refine ⟨hlt, hstop, fun i => ?_⟩
    constructor
    · intro hi
      have hlength : i < length := by omega
      exact ⟨hlength, (hselects i hlength).2 hi⟩
    · intro ⟨hlength, hi⟩
      exact (hselects i hlength).1 hi
  · intro ks hks key v hv c n hn hlt client
    exact RangeCommand.exists_reply hks hv start stop c hn hlt client

/-- From the least word to the greatest all is selected, of as many positions as a word can count
and of three members. From the least word to the least word nothing is, but of bytes the first. -/
theorem ranges_between_extreme_words :
    let client : Client := { id := 1 }
    let frame (words : List String) : Frame := .bulkArray (words.map Bytes.ofString)
    let add : Command := .sortedSets (.zadd [122] none false
      [(.infinity true, [97]), (.zero, [98]), (.infinity false, [99])])
    let ks := (add.exec {} client).2.1
    let most : Nat := 9223372036854775807
    let least := Int64.minValue
    let greatest := Int64.maxValue
    most < Nat.pow 2 63 ∧
      Words.clamp? least greatest most = .ok (some ⟨0, most⟩) ∧
      Words.clamp? least least most = .ok none ∧
      Words.clampBytes? least least most = .ok (some ⟨0, 1⟩) ∧
      Command.ofFrame (frame ["ZADD", "z", "-inf", "a", "0", "b", "inf", "c"]) = .ok add ∧
      ks.Reachable ∧ ∃ v, ks.held [122] = some v ∧
      (RangeCommand.zrevrange false).positions? v = some 3 ∧ 3 < Nat.pow 2 63 ∧
      ∃ reply, (RangeCommand.zrevrange false).reply? least greatest v = some (.ok reply) ∧
        ((Command.sortedSets (.zrevrange [122] least greatest false)).exec ks client).1 =
          .ok reply ∧
        reply = .bulkArray [[99], [98], [97]] := by
  intro client frame add ks most least greatest
  have hmost : most < Nat.pow 2 63 := by decide
  have hadd : Command.ofFrame (frame ["ZADD", "z", "-inf", "a", "0", "b", "inf", "c"]) =
      .ok add := by
    decide +kernel
  have hks : ks.Reachable := Keyspace.Reachable.start.exec hadd client
  obtain ⟨v, hv, hpositions⟩ : ∃ v, ks.held [122] = some v ∧
      (RangeCommand.zrevrange false).positions? v = some 3 := ⟨_, rfl, rfl⟩
  have hthree : (3 : Nat) < Nat.pow 2 63 := by decide
  obtain ⟨hlengths, hreplies⟩ := ranges_in_words_are_exact least greatest
  obtain ⟨hall, -⟩ := hlengths most hmost
  obtain ⟨hnone, hfirst, -⟩ := (ranges_in_words_are_exact least least).1 most hmost
  obtain ⟨reply, hreply, hexec⟩ :=
    hreplies ks hks [122] v hv (.zrevrange false) 3 hpositions hthree client
  have hlisted : ((Command.sortedSets (.zrevrange [122] least greatest false)).exec ks client).1 =
      .ok (.bulkArray [[99], [98], [97]]) := by
    decide +kernel
  exact ⟨hmost, hall, hnone, hfirst, hadd, hks, v, hv, hpositions, hthree, reply, hreply, hexec,
    Except.ok.inj (hexec.symm.trans hlisted)⟩

end Span
end RespStore
