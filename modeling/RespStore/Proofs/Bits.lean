import Mathlib.Data.Nat.Bitwise
import Mathlib.Order.Interval.Finset.Nat
import RespStore.Bits
import RespStore.Span

/-! Strings as arrays of bits, told by their lengths and their bits. -/
namespace RespStore.Bits

section Bytes

variable (byte : UInt8) (offset other : Nat)

theorem toNat_mask : (mask offset).toNat = 2 ^ (7 - offset % 8) := by
  have hlt : offset % 8 < 8 := Nat.mod_lt _ (by omega)
  have hshift : (UInt8.ofNat (offset % 8)).toNat % 8 = offset % 8 := by
    rw [UInt8.toNat_ofNat']
    omega
  have hhalves : 128 >>> (offset % 8) = 2 ^ 7 / 2 ^ (offset % 8) := Nat.shiftRight_eq_div_pow _ _
  rw [mask, UInt8.toNat_shiftRight, hshift]
  exact hhalves.trans (Nat.pow_div (by omega) (by omega))

theorem bitOf_eq_testBit : bitOf byte offset = byte.toNat.testBit (7 - offset % 8) := by
  have hand : (byte &&& mask offset).toNat =
      (byte.toNat.testBit (7 - offset % 8)).toNat * 2 ^ (7 - offset % 8) := by
    rw [UInt8.toNat_and, toNat_mask, Nat.and_two_pow]
  have hzero : byte &&& mask offset = 0 ↔ (byte &&& mask offset).toNat = 0 :=
    UInt8.toNat_inj.symm
  rw [hand] at hzero
  cases h : byte.toNat.testBit (7 - offset % 8) with
  | false => simp [bitOf, hzero, h]
  | true => simp [bitOf, hzero, h]

theorem bitOf_mod : bitOf byte (offset % 8) = bitOf byte offset := by
  rw [bitOf_eq_testBit, bitOf_eq_testBit, Nat.mod_mod]

theorem bitOf_zero : bitOf 0 offset = false := by
  rw [bitOf_eq_testBit]
  exact Nat.zero_testBit _

theorem testBit_mask :
    (mask offset).toNat.testBit (7 - other % 8) = decide (offset % 8 = other % 8) := by
  rw [toNat_mask, Nat.testBit_two_pow, decide_eq_decide]
  omega

theorem bitOf_or_mask : bitOf (byte ||| mask offset) other =
    (bitOf byte other || decide (offset % 8 = other % 8)) := by
  rw [bitOf_eq_testBit, UInt8.toNat_or, Nat.testBit_or, testBit_mask, bitOf_eq_testBit]

theorem bitOf_and_not_mask : bitOf (byte &&& ~~~mask offset) other =
    (bitOf byte other && !decide (offset % 8 = other % 8)) := by
  have hnot : (~~~mask offset).toNat.testBit (7 - other % 8) =
      !(mask offset).toNat.testBit (7 - other % 8) := by
    have hlt : (mask offset).toNat < 2 ^ 8 := (mask offset).toNat_lt
    have hsize : UInt8.size - 1 - (mask offset).toNat = 2 ^ 8 - ((mask offset).toNat + 1) := by
      rw [UInt8.size]
      omega
    have hplace : 7 - other % 8 < 8 := by omega
    rw [UInt8.toNat_not, hsize, Nat.testBit_two_pow_sub_succ hlt]
    simp [hplace]
  rw [bitOf_eq_testBit, UInt8.toNat_and, Nat.testBit_and, hnot, testBit_mask, bitOf_eq_testBit]

def withBit (bit : Bool) : UInt8 := if bit then byte ||| mask offset else byte &&& ~~~mask offset

theorem bitOf_withBit (bit : Bool) : bitOf (withBit byte offset bit) other =
    if other % 8 = offset % 8 then bit else bitOf byte other := by
  by_cases h : other % 8 = offset % 8
  · cases bit <;> simp [withBit, bitOf_or_mask, bitOf_and_not_mask, h]
  · cases bit <;> simp [withBit, bitOf_or_mask, bitOf_and_not_mask, h, Ne.symm h]

variable {byte}

theorem eq_of_bitOf {byte' : UInt8} (h : ∀ i < 8, bitOf byte i = bitOf byte' i) :
    byte = byte' := by
  apply UInt8.toNat_inj.1
  apply Nat.eq_of_testBit_eq
  intro i
  by_cases hi : i < 8
  · have hplace : 7 - (7 - i) % 8 = i := by omega
    have hbit := h (7 - i) (by omega)
    rwa [bitOf_eq_testBit, bitOf_eq_testBit, hplace] at hbit
  · have hbig (b : UInt8) : b.toNat.testBit i = false := by
      have hle : 2 ^ 8 ≤ 2 ^ i := Nat.pow_le_pow_right (by omega) (by omega)
      exact Nat.testBit_lt_two_pow (lt_of_lt_of_le b.toNat_lt hle)
    rw [hbig, hbig]

end Bytes

section Strings

variable {data data' : Bytes} {offset other : Nat} {bit bit' : Bool}

theorem get_of_getElem? {byte : UInt8} (h : data[offset / 8]? = some byte) :
    get data offset = bitOf byte offset := by
  rw [get, h, Option.any_some]

theorem get_of_length_le (h : data.length ≤ offset / 8) : get data offset = false := by
  rw [get, List.getElem?_eq_none h, Option.any_none]

theorem eq_of_get (hlength : data.length = data'.length)
    (h : ∀ offset, get data offset = get data' offset) : data = data' := by
  apply List.ext_getElem hlength
  intro i hi hi'
  apply eq_of_bitOf
  intro k hk
  have hbyte : (i * 8 + k) / 8 = i := by omega
  have hplace : (i * 8 + k) % 8 = k := by omega
  have hread (data : Bytes) (hi : i < data.length) : get data (i * 8 + k) = bitOf data[i] k := by
    have hget : data[(i * 8 + k) / 8]? = some data[i] := by rw [hbyte, List.getElem?_eq_getElem hi]
    rw [get_of_getElem? hget, ← bitOf_mod, hplace]
  rw [← hread data hi, ← hread data' hi', h]

/-- The string that a write makes out of another before it sets the bit. -/
def padded (data : Bytes) (offset : Nat) : Bytes :=
  data ++ List.replicate (offset / 8 + 1 - data.length) 0

theorem set_eq : set data offset bit =
    (padded data offset).modify (offset / 8) (withBit · offset bit) := rfl

theorem length_padded : (padded data offset).length = max data.length (offset / 8 + 1) := by
  rw [padded, List.length_append, List.length_replicate]
  omega

theorem length_set : (set data offset bit).length = max data.length (offset / 8 + 1) := by
  rw [set_eq, List.length_modify, length_padded]

theorem getElem?_padded_of_le {i : Nat} (hi : data.length ≤ i) (hlt : i < offset / 8 + 1) :
    (padded data offset)[i]? = some 0 := by
  rw [padded, List.getElem?_append_right hi, List.getElem?_replicate_of_lt (by omega)]

theorem get_padded (data : Bytes) (offset other : Nat) :
    get (padded data offset) other = get data other := by
  by_cases hold : other / 8 < data.length
  · rw [get, get, padded, List.getElem?_append_left hold]
  · have hzero : get data other = false := get_of_length_le (by omega)
    rw [hzero]
    by_cases hnew : other / 8 < offset / 8 + 1
    · rw [get_of_getElem? (getElem?_padded_of_le (by omega) hnew), bitOf_zero]
    · have hlength : (padded data offset).length = _ := length_padded
      exact get_of_length_le (by omega)

theorem getElem?_set {i : Nat} : (set data offset bit)[i]? =
    (padded data offset)[i]?.map fun byte =>
      if offset / 8 = i then withBit byte offset bit else byte := by
  rw [set_eq, List.getElem?_modify]
  rfl

/-- A write is read at its offset, and changes the bit at no other. -/
theorem get_set :
    get (set data offset bit) other = if other = offset then bit else get data other := by
  rw [← get_padded data offset other, get, getElem?_set, Option.any_map, get]
  cases hbyte : (padded data offset)[other / 8]? with
  | none =>
    have hle : (padded data offset).length ≤ other / 8 := List.getElem?_eq_none_iff.1 hbyte
    have hne : other ≠ offset := by
      rw [length_padded] at hle
      rintro rfl
      omega
    simp [hne]
  | some byte =>
    have hsame : other = offset ↔ offset / 8 = other / 8 ∧ other % 8 = offset % 8 := by omega
    by_cases hin : offset / 8 = other / 8
    · simp [hsame, hin, bitOf_withBit]
    · simp [hsame, hin]

/-- Of the bytes that a write adds, all are zero but for the bit that it sets. -/
theorem getElem?_set_of_le {i : Nat} (hi : data.length ≤ i) (hlt : i < offset / 8 + 1) :
    (set data offset bit)[i]? = some (if i = offset / 8 then withBit 0 offset bit else 0) := by
  rw [getElem?_set, getElem?_padded_of_le hi hlt, Option.map_some]
  simp only [eq_comm]

theorem set_comm (h : offset ≠ other) :
    set (set data offset bit) other bit' = set (set data other bit') offset bit := by
  apply eq_of_get
  · simp only [length_set]
    omega
  · intro i
    simp only [get_set]
    by_cases hi : i = offset
    · simp [hi, h]
    · simp [hi]

end Strings

section Listing

variable {data : Bytes}

theorem ofBytes_cons (byte : UInt8) (rest : Bytes) :
    ofBytes (byte :: rest) = (List.range 8).map (bitOf byte) ++ ofBytes rest := rfl

theorem length_ofBytes (data : Bytes) : (ofBytes data).length = 8 * data.length := by
  induction data with
  | nil => rfl
  | cons byte rest ih =>
    rw [ofBytes_cons, List.length_append, ih, List.length_map, List.length_range,
      List.length_cons]
    omega

theorem ofBytes_eq_map_get (data : Bytes) :
    ofBytes data = (List.range (8 * data.length)).map (get data) := by
  induction data with
  | nil => rfl
  | cons byte rest ih =>
    have hfirst : (List.range 8).map (bitOf byte) = (List.range 8).map (get (byte :: rest)) := by
      apply List.map_congr_left
      intro i hi
      have hzero : i / 8 = 0 := by
        rw [List.mem_range] at hi
        omega
      have hbyte : (byte :: rest)[i / 8]? = some byte := by rw [hzero, List.getElem?_cons_zero]
      exact (get_of_getElem? hbyte).symm
    have hrest : get rest = get (byte :: rest) ∘ (8 + ·) := by
      funext i
      have hnext : (8 + i) / 8 = i / 8 + 1 := by omega
      have hplace (byte : UInt8) : bitOf byte (8 + i) = bitOf byte i := by
        rw [← bitOf_mod, Nat.add_mod_left, bitOf_mod]
      simp only [get, Function.comp_apply, hnext, List.getElem?_cons_succ, hplace]
    have hlength : 8 * (byte :: rest).length = 8 + 8 * rest.length := by
      rw [List.length_cons]
      omega
    rw [ofBytes_cons, hfirst, ih, hlength, List.range_add, List.map_append, List.map_map, hrest]

theorem ofBytes_drop (n : Nat) (data : Bytes) :
    ofBytes (data.drop n) = (ofBytes data).drop (8 * n) := by
  induction n generalizing data with
  | zero => rfl
  | succ n ih =>
    cases data with
    | nil => rfl
    | cons byte rest =>
      have hskip : 8 * (n + 1) = ((List.range 8).map (bitOf byte)).length + 8 * n := by
        rw [List.length_map, List.length_range]
        omega
      rw [List.drop_succ_cons, ih, ofBytes_cons, hskip, List.drop_length_add_append]

theorem ofBytes_take (n : Nat) (data : Bytes) :
    ofBytes (data.take n) = (ofBytes data).take (8 * n) := by
  induction n generalizing data with
  | zero => rfl
  | succ n ih =>
    cases data with
    | nil => rfl
    | cons byte rest =>
      have hskip : 8 * (n + 1) = ((List.range 8).map (bitOf byte)).length + 8 * n := by
        rw [List.length_map, List.length_range]
        omega
      rw [List.take_succ_cons, ofBytes_cons, ih, ofBytes_cons, hskip, List.take_length_add_append]

theorem ofBytes_slice (s : Span) (data : Bytes) :
    ofBytes (s.slice data) = Span.slice ⟨8 * s.start, 8 * s.stop⟩ (ofBytes data) := by
  rw [Span.slice, Span.slice, ofBytes_take, ofBytes_drop, Span.length, Span.length, Nat.mul_sub]

/-- The offsets from `a` up to but without `b` at which the bits of a string are set. -/
def setOffsets (data : Bytes) (a b : Nat) : Finset Nat :=
  (Finset.Ico a b).filter fun offset => get data offset = true

theorem card_setOffsets_le (data : Bytes) (a b : Nat) : (setOffsets data a b).card ≤ b := by
  have hle : (setOffsets data a b).card ≤ (Finset.Ico a b).card := Finset.card_filter_le _ _
  rw [Nat.card_Ico] at hle
  omega

theorem count_slice {s : Span} (hstop : s.stop ≤ 8 * data.length) :
    (s.slice (ofBytes data)).count true = (setOffsets data s.start s.stop).card := by
  have hslice : s.slice (ofBytes data) =
      (List.range' s.start (s.stop - s.start)).map (get data) := by
    rw [Span.slice, Span.length, ofBytes_eq_map_get, ← List.map_drop, ← List.map_take,
      List.range_eq_range', List.drop_range', Nat.zero_add, Nat.mul_one,
      List.take_range'_of_length_ge (by omega)]
  have hcount : (setOffsets data s.start s.stop).card =
      (List.range' s.start (s.stop - s.start)).countP fun offset => get data offset = true := by
    rw [List.countP_eq_length_filter]
    rfl
  rw [hslice, hcount, List.count_eq_countP, List.countP_map]
  apply List.countP_congr
  intro offset _
  simp

end Listing
end RespStore.Bits
