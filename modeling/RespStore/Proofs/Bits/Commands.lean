import RespStore.Glob.Search
import RespStore.Proofs.Access.Commands
import RespStore.Proofs.Bits
import RespStore.Proofs.Keyspace
import RespStore.Proofs.Number.Decimal
import RespStore.Proofs.Request.Argument
import RespStore.Proofs.Request.Yields
import RespStore.Proofs.Span

/-! Bits of strings, as clients write, read and count them. -/
namespace RespStore
open Keyspace

namespace Reader

theorem bitOffset_yields : bitOffset.Yields (· < maxBits) := by
  intro args offset rest h
  cases args with
  | nil => cases h
  | cons a args =>
    obtain ⟨n, hn, heq⟩ := bind_eq_ok_iff.1 h
    cases heq
    dsimp only at hn
    split at hn
    · cases hn
    · cases hn
    · split at hn
      · next hrange =>
        cases hn
        omega
      · cases hn

theorem int64_bytes (n : Int64) (rest : List Frame) :
    int64 (.bulk (Decimal.bytes n.toInt) :: rest) = .ok (n, rest) := by
  have hread : (Frame.bulk (Decimal.bytes n.toInt)).int64 = .ok n :=
    Frame.int64_bulk_eq_ok (Decimal.readInt64_bytes n)
  exact bind_eq_ok_iff.2 ⟨n, hread, rfl⟩

theorem bitOffset_bytes {offset : Nat} (h : offset < maxBits) (rest : List Frame) :
    bitOffset (.bulk (Decimal.bytes offset) :: rest) = .ok (offset, rest) := by
  have hmax : maxBits = 4294967296 := rfl
  have hexact : (Int64.ofNat offset).toInt = offset := by
    rw [Int64.toInt_ofNat_of_lt (by omega)]
  have hread : (Frame.bulk (Decimal.bytes offset)).int64 = .ok (Int64.ofNat offset) := by
    rw [← hexact]
    exact Frame.int64_bulk_eq_ok (Decimal.readInt64_bytes _)
  have hrange : 0 ≤ (offset : Int) ∧ (offset : Int) < maxBits := by omega
  simp only [bitOffset, next, hread, hexact, hrange, and_self, if_true, Int.toNat_natCast]
  rfl

end Reader

namespace StringCommand

/-- The command names no bit that is out of the reach of strings. -/
def InReach : StringCommand → Prop
  | .getbit _ offset | .setbit _ offset _ => offset < Reader.maxBits
  | _ => True

theorem reader?_inReach {name : String} {r : Reader StringCommand} (h : reader? name = some r) :
    r.Yields InReach := by
  unfold reader? at h
  split at h <;> cases h
  -- The two commands that name a bit: GETBIT and SETBIT.
  case h_6 =>
    exact .bind (.any _) fun _ _ => .bind Reader.bitOffset_yields fun _ ho => .pure ho
  case h_17 =>
    exact .bind (.any _) fun _ _ => .bind Reader.bitOffset_yields fun _ ho =>
      .bind (.any _) fun _ _ => .pure ho
  all_goals repeat refine .bind (.any _) fun _ _ => ?_
  all_goals exact .pure trivial

variable {ks : Keyspace} {key : Bytes} {found : Option Bytes}

theorem getbit_of_held (h : ks.held key = found.map .string) (offset : Nat) :
    (exec ks (.getbit key offset)).1 = .ok (.flag (Bits.get (found.getD []) offset)) :=
  congrArg (Except.map _) (ks.getString_of_held key h)

theorem strlen_of_held (h : ks.held key = found.map .string) :
    (exec ks (.strlen key)).1 = .ok (.count (found.getD []).length) :=
  congrArg (Except.map _) (ks.getString_of_held key h)

theorem setbit_of_held (h : ks.held key = found.map .string) (offset : Nat) (bit : Bool) :
    (exec ks (.setbit key offset bit)).1 = .ok (.flag (Bits.get (found.getD []) offset)) ∧
      (exec ks (.setbit key offset bit)).2.live =
        ks.live.set key (some ⟨.string (Bits.set (found.getD []) offset bit),
          (ks.live.get? key).bind (·.deadline)⟩) := by
  have hwrite : setBit offset bit (ks.live.get? key) =
      .ok (Bits.get (found.getD []) offset, some ⟨.string (Bits.set (found.getD []) offset bit),
        (ks.live.get? key).bind (·.deadline)⟩) := by
    rw [setBit, ks.string?_of_held key h]
    rfl
  have hleft := (edit_of_setBit hwrite).liveAt (ks.liveAt_get?_live key)
  obtain ⟨hresult, hlive⟩ := ks.tryAccess_of_ok key hwrite hleft
  exact ⟨congrArg (Except.map _) hresult, hlive⟩

theorem held_setbit (h : ks.held key = found.map .string) (offset : Nat) (bit : Bool) :
    (exec ks (.setbit key offset bit)).2.held key =
      (some (Bits.set (found.getD []) offset bit)).map .string := by
  rw [held, (setbit_of_held h offset bit).2, Table.get?_set, if_pos rfl]
  rfl

theorem setbit_comm (h : ks.held key = found.map .string) {offset other : Nat}
    (hne : offset ≠ other) (bit bit' : Bool) :
    (exec (exec ks (.setbit key offset bit)).2 (.setbit key other bit')).2.live =
      (exec (exec ks (.setbit key other bit')).2 (.setbit key offset bit)).2.live := by
  have htwice (first second : Nat) (bit bit' : Bool) :
      (exec (exec ks (.setbit key first bit)).2 (.setbit key second bit')).2.live =
        ks.live.set key (some ⟨.string (Bits.set (Bits.set (found.getD []) first bit) second bit'),
          (ks.live.get? key).bind (·.deadline)⟩) := by
    have hlive := (setbit_of_held h first bit).2
    have hheld := held_setbit h first bit
    rw [(setbit_of_held hheld second bit').2, hlive, Table.get?_set, if_pos rfl, Table.set_set]
    rfl
  rw [htwice, htwice, Bits.set_comm hne]

section Counting

variable (start stop : Int64) (data : Bytes)

theorem countBits_whole : countBits none data = (Bits.setOffsets data 0 (8 * data.length)).card := by
  have hwhole : Span.slice ⟨0, 8 * data.length⟩ (Bits.ofBytes data) = Bits.ofBytes data := by
    rw [Span.slice, Span.length, List.drop_zero, Nat.sub_zero, ← Bits.length_ofBytes,
      List.take_length]
  have hcount := Bits.count_slice (s := ⟨0, 8 * data.length⟩) (Nat.le_refl (8 * data.length))
  rwa [hwhole] at hcount

theorem countBits_bytes : countBits (some ⟨start, stop, .byte⟩) data =
    (Span.clampBytes? start.toInt stop.toInt data.length).elim 0 fun s =>
      (Bits.setOffsets data (8 * s.start) (8 * s.stop)).card := by
  simp only [countBits]
  cases hspan : Span.clampBytes? start.toInt stop.toInt data.length with
  | none => rfl
  | some s =>
    have hstop : s.stop ≤ data.length := (Span.bounds_of_clampBytes? hspan).2
    have hbits : 8 * s.stop ≤ 8 * data.length := by omega
    have hcount := Bits.count_slice (s := ⟨8 * s.start, 8 * s.stop⟩) hbits
    rwa [← Bits.ofBytes_slice] at hcount

theorem countBits_bits : countBits (some ⟨start, stop, .bit⟩) data =
    (Span.clampBytes? start.toInt stop.toInt (8 * data.length)).elim 0 fun s =>
      (Bits.setOffsets data s.start s.stop).card := by
  rw [Nat.mul_comm]
  simp only [countBits]
  cases hspan : Span.clampBytes? start.toInt stop.toInt (data.length * 8) with
  | none => rfl
  | some s =>
    have hstop : s.stop ≤ data.length * 8 := (Span.bounds_of_clampBytes? hspan).2
    exact Bits.count_slice (by omega)

theorem countBits_le (range : Option BitRange) : countBits range data ≤ 8 * data.length := by
  have hpart {length : Nat} (a b : Span → Nat) (hb : ∀ s : Span, s.stop ≤ length →
      b s ≤ 8 * data.length) (start stop : Int64) :
      (Span.clampBytes? start.toInt stop.toInt length).elim 0
        (fun s => (Bits.setOffsets data (a s) (b s)).card) ≤ 8 * data.length := by
    cases hspan : Span.clampBytes? start.toInt stop.toInt length with
    | none => exact Nat.zero_le _
    | some s =>
      have hle := Bits.card_setOffsets_le data (a s) (b s)
      exact hle.trans (hb s (Span.bounds_of_clampBytes? hspan).2)
  match range with
  | none =>
    rw [countBits_whole]
    exact Bits.card_setOffsets_le data 0 _
  | some ⟨start, stop, .byte⟩ =>
    rw [countBits_bytes]
    exact hpart _ _ (fun s hs => Nat.mul_le_mul_left 8 hs) start stop
  | some ⟨start, stop, .bit⟩ =>
    rw [countBits_bits]
    exact hpart _ _ (fun s hs => hs) start stop

end Counting

end StringCommand

namespace Command

variable {ks : Keyspace} {key : Bytes} {found : Option Bytes}

section Requests

variable {offset : Nat}

theorem exists_getbit_iff :
    (∃ request, ofFrame request = .ok (.strings (.getbit key offset))) ↔
      offset < Reader.maxBits := by
  constructor
  · rintro ⟨request, h⟩
    exact strings_of_ofFrame StringCommand.reader?_inReach h
  · intro h
    refine ⟨.bulkArray [Bytes.ofString "GETBIT", key, Decimal.bytes offset],
      ofFrame_bulkArray (by decide +kernel : Text.lowercase "GETBIT" = "getbit") rfl ?_⟩
    exact Reader.bind_eq_ok rfl (Reader.bind_eq_ok (Reader.bitOffset_bytes h []) rfl)

theorem exists_setbit_iff {bit : Bool} :
    (∃ request, ofFrame request = .ok (.strings (.setbit key offset bit))) ↔
      offset < Reader.maxBits := by
  constructor
  · rintro ⟨request, h⟩
    exact strings_of_ofFrame StringCommand.reader?_inReach h
  · intro h
    have hbit : Reader.bit [.bulk (Bytes.ofString (if bit then "1" else "0"))] =
        .ok (bit, []) := by
      cases bit <;> decide +kernel
    refine ⟨.bulkArray [Bytes.ofString "SETBIT", key, Decimal.bytes offset,
      Bytes.ofString (if bit then "1" else "0")],
      ofFrame_bulkArray (by decide +kernel : Text.lowercase "SETBIT" = "setbit") rfl ?_⟩
    exact Reader.bind_eq_ok rfl (Reader.bind_eq_ok (Reader.bitOffset_bytes h _)
      (Reader.bind_eq_ok hbit rfl))

theorem ofFrame_bitcount (key : Bytes) (start stop : Int64) :
    let count (args : List Bytes) := ofFrame (.bulkArray (Bytes.ofString "BITCOUNT" :: key :: args))
    let ends := [Decimal.bytes start.toInt, Decimal.bytes stop.toInt]
    count [] = .ok (.strings (.bitcount key none)) ∧
      count ends = .ok (.strings (.bitcount key (some ⟨start, stop, .byte⟩))) ∧
      count (ends ++ [Bytes.ofString "BYTE"]) =
        .ok (.strings (.bitcount key (some ⟨start, stop, .byte⟩))) ∧
      count (ends ++ [Bytes.ofString "BIT"]) =
        .ok (.strings (.bitcount key (some ⟨start, stop, .bit⟩))) := by
  intro count ends
  have hword : Text.lowercase "BITCOUNT" = "bitcount" := by decide +kernel
  have hcount {args : List Bytes} {range : Option BitRange}
      (h : Reader.optional StringCommand.bitRange (args.map .bulk) = .ok (range, [])) :
      count args = .ok (.strings (.bitcount key range)) :=
    ofFrame_bulkArray hword rfl (Reader.bind_eq_ok rfl (Reader.bind_eq_ok h rfl))
  have hends (args : List Bytes) (unit : Option BitUnit)
      (h : Reader.optional (Reader.keyword [("BYTE", BitUnit.byte), ("BIT", .bit)])
        (args.map .bulk) = .ok (unit, [])) :
      count (ends ++ args) =
        .ok (.strings (.bitcount key (some ⟨start, stop, unit.getD .byte⟩))) := by
    have hrange : StringCommand.bitRange ((ends ++ args).map .bulk) =
        .ok (⟨start, stop, unit.getD .byte⟩, []) :=
      Reader.bind_eq_ok (Reader.int64_bytes start _)
        (Reader.bind_eq_ok (Reader.int64_bytes stop _) (Reader.bind_eq_ok h rfl))
    exact hcount (bind_eq_ok_iff.2 ⟨_, hrange, rfl⟩)
  refine ⟨hcount rfl, hends [] none rfl, ?_, ?_⟩
  · exact hends [Bytes.ofString "BYTE"] (some .byte) (by decide +kernel)
  · exact hends [Bytes.ofString "BIT"] (some .bit) (by decide +kernel)

end Requests

section
variable [Glob.Matcher]

/-- The offsets from `a` up to but without `b` at which a client reads a bit as one. -/
def onesRead (ks : Keyspace) (key : Bytes) (client : Client) (a b : Nat) : Finset Nat :=
  (Finset.Ico a b).filter fun offset =>
    ((Command.strings (.getbit key offset)).exec ks client).1 = .ok (.integer 1)

theorem onesRead_of_held (h : ks.held key = found.map .string) (client : Client) (a b : Nat) :
    onesRead ks key client a b = Bits.setOffsets (found.getD []) a b := by
  apply Finset.filter_congr
  intro offset _
  have hread : ((Command.strings (.getbit key offset)).exec ks client).1 =
      .ok (.flag (Bits.get (found.getD []) offset)) :=
    mapError_eq_ok_iff.2 (StringCommand.getbit_of_held h offset)
  rw [hread]
  cases Bits.get (found.getD []) offset <;> decide

/-- Where a string or nothing is held, a bit that is written at an offset, of those that requests can
name, is read there from then on, and the bits at all other offsets are read as before. The reply is
the bit that was there. The string gets as long as it takes, by zero bytes but for the bit that is
set, and it makes no difference in which order two offsets are written. -/
theorem bit_written_is_read_there (h : ks.held key = found.map .string) (client : Client)
    (offset : Nat) (bit : Bool) :
    let data := found.getD []
    let run (ks : Keyspace) (c : StringCommand) := (Command.strings c).exec ks client
    let written := (run ks (.setbit key offset bit)).2.1
    let length := max data.length (offset / 8 + 1)
    ((∃ request, ofFrame request = .ok (.strings (.setbit key offset bit))) ↔
      offset < Reader.maxBits) ∧
    ((∃ request, ofFrame request = .ok (.strings (.getbit key offset))) ↔
      offset < Reader.maxBits) ∧
    (∃ before, (run ks (.getbit key offset)).1 = .ok (.flag before) ∧
      (run ks (.setbit key offset bit)).1 = .ok (.flag before)) ∧
    (run written (.getbit key offset)).1 = .ok (.flag bit) ∧
    (∀ other ≠ offset, (run written (.getbit key other)).1 = (run ks (.getbit key other)).1) ∧
    (run written (.strlen key)).1 = .ok (.count length) ∧
    (∃ text, written.held key = some (.string text) ∧ text.length = length ∧
      ∀ i, data.length ≤ i → i < length →
        text[i]? = some (if bit = true ∧ i = offset / 8 then Bits.mask offset else 0)) ∧
    ∀ other ≠ offset, ∀ bit' : Bool,
      (run written (.setbit key other bit')).2.1.live =
        (run (run ks (.setbit key other bit')).2.1 (.setbit key offset bit)).2.1.live := by
  intro data run written length
  have hwritten : written.held key = (some (Bits.set data offset bit)).map .string :=
    StringCommand.held_setbit h offset bit
  have hread {ks : Keyspace} {found : Option Bytes} (h : ks.held key = found.map .string)
      (other : Nat) :
      (run ks (.getbit key other)).1 = .ok (.flag (Bits.get (found.getD []) other)) :=
    mapError_eq_ok_iff.2 (StringCommand.getbit_of_held h other)
  refine ⟨exists_setbit_iff, exists_getbit_iff, ⟨_, hread h offset, ?_⟩, ?_, fun other hne => ?_,
    ?_, ⟨_, hwritten, Bits.length_set, fun i hle hlt => ?_⟩, fun other hne bit' => ?_⟩
  · exact mapError_eq_ok_iff.2 (StringCommand.setbit_of_held h offset bit).1
  · rw [hread hwritten, Option.getD_some, Bits.get_set, if_pos rfl]
  · rw [hread hwritten, hread h, Option.getD_some, Bits.get_set, if_neg hne]
  · have hlength := StringCommand.strlen_of_held hwritten
    rw [Option.getD_some, Bits.length_set] at hlength
    exact mapError_eq_ok_iff.2 hlength
  · have hnew : i < offset / 8 + 1 := by omega
    rw [Bits.getElem?_set_of_le hle hnew]
    cases bit <;> simp [Bits.withBit]
  · exact StringCommand.setbit_comm h hne.symm bit bit'

end

/-- Of one byte, three are made by a bit that is set far past its end. -/
theorem bit_written_past_end :
    let client : Client := { id := 1 }
    let entry (text : Bytes) : Slot := some ⟨.string text, some 5000⟩
    let ks : Keyspace := { entries := Table.empty.set [107] (entry [96]) }
    let run (ks : Keyspace) (c : StringCommand) := (Command.strings c).exec ks client
    let written := (run ks (.setbit [107] 17 true)).2.1
    ks.held [107] = (some [96]).map .string ∧ written.live.get? [107] = entry [96, 0, 64] ∧
      (run written (.getbit [107] 17)).1 = .ok (.flag true) ∧
      (run written (.getbit [107] 1)).1 = (run ks (.getbit [107] 1)).1 ∧
      (run written (.strlen [107])).1 = .ok (.count 3) ∧
      (run written (.setbit [107] 1 false)).2.1.live =
        (run (run ks (.setbit [107] 1 false)).2.1 (.setbit [107] 17 true)).2.1.live := by
  intro client entry ks run written
  have hheld : ks.held [107] = (some [96]).map .string := by decide
  obtain ⟨-, -, -, hbit, hothers, hlength, -, hcomm⟩ :=
    bit_written_is_read_there hheld client 17 true
  exact ⟨hheld, by decide +kernel, hbit, hothers 1 (by decide), hlength, hcomm 1 (by decide) false⟩

/-- The bits that are counted of a string that is held are those that are read as one: of the whole
string, of the bytes that a range is resolved to, or of the bits that it is resolved to. Such a range
lies within the string, and where there is none the count is zero. -/
theorem bits_counted_are_read [Glob.Matcher] {data : Bytes} (h : ks.held key = some (.string data))
    (hlength : data.length < StringCommand.maxLength) (client : Client) :
    let counted (range : Option BitRange) (n : Nat) := ∃ m : Int64, m.toInt = n ∧
      ((Command.strings (.bitcount key range)).exec ks client).1 = .ok (.integer m)
    let ones (a b : Nat) := (onesRead ks key client a b).card
    (∀ offset < 8 * data.length,
      ∃ request, ofFrame request = .ok (.strings (.getbit key offset))) ∧
    counted none (ones 0 (8 * data.length)) ∧
    ∀ start stop : Int64,
      let resolved := Span.clampBytes? start.toInt stop.toInt
      let count (args : List Bytes) :=
        ofFrame (.bulkArray (Bytes.ofString "BITCOUNT" :: key :: args))
      let ends := [Decimal.bytes start.toInt, Decimal.bytes stop.toInt]
      (count [] = .ok (.strings (.bitcount key none)) ∧
        count ends = .ok (.strings (.bitcount key (some ⟨start, stop, .byte⟩))) ∧
        count (ends ++ [Bytes.ofString "BYTE"]) =
          .ok (.strings (.bitcount key (some ⟨start, stop, .byte⟩))) ∧
        count (ends ++ [Bytes.ofString "BIT"]) =
          .ok (.strings (.bitcount key (some ⟨start, stop, .bit⟩)))) ∧
      counted (some ⟨start, stop, .byte⟩)
        ((resolved data.length).elim 0 fun s => ones (8 * s.start) (8 * s.stop)) ∧
      counted (some ⟨start, stop, .bit⟩)
        ((resolved (8 * data.length)).elim 0 fun s => ones s.start s.stop) ∧
      ∀ length, ∀ s ∈ resolved length, s.start < s.stop ∧ s.stop ≤ length := by
  intro counted ones
  have hheld : ks.held key = (some data).map .string := h
  have hmax : StringCommand.maxLength = 536870912 := rfl
  have hones : ones = fun a b => (Bits.setOffsets data a b).card := by
    funext a b
    exact congrArg Finset.card (onesRead_of_held hheld client a b)
  have hcounted {range : Option BitRange} {n : Nat}
      (hn : StringCommand.countBits range data = n) : counted range n := by
    have hle := StringCommand.countBits_le data range
    rw [← hn]
    refine ⟨Int64.ofNat (StringCommand.countBits range data),
      Int64.toInt_ofNat_of_lt (by omega), mapError_eq_ok_iff.2 ?_⟩
    exact congrArg (Except.map _) (ks.getString_of_held key hheld)
  rw [hones]
  refine ⟨fun offset hoffset => exists_getbit_iff.2 ?_,
    hcounted (StringCommand.countBits_whole data), fun start stop => ?_⟩
  · have hbits : Reader.maxBits = 4294967296 := rfl
    omega
  · intro resolved count ends
    exact ⟨ofFrame_bitcount key start stop,
      hcounted (StringCommand.countBits_bytes start stop data),
      hcounted (StringCommand.countBits_bits start stop data),
      fun length s hs => Span.bounds_of_clampBytes? hs⟩

/-- Of six bytes, those from the last but one on have seven bits set, and as many as there are from
the sixth bit to the last but one make up the rest of the whole. -/
theorem bits_counted_of_six_bytes :
    let client : Client := { id := 1 }
    let ks : Keyspace :=
      { entries := Table.empty.insert [107] ⟨.string (Bytes.ofString "foobar"), none⟩ }
    let ones (a b : Nat) := (onesRead ks [107] client a b).card
    ks.held [107] = some (.string (Bytes.ofString "foobar")) ∧
      (∃ m : Int64, m.toInt = ones 32 48 ∧
        ((Command.strings (.bitcount [107] (some ⟨-2, 100, .byte⟩))).exec ks client).1 =
          .ok (.integer m)) ∧
      (∃ m : Int64, m.toInt = ones 5 47 ∧
        ((Command.strings (.bitcount [107] (some ⟨5, -2, .bit⟩))).exec ks client).1 =
          .ok (.integer m)) := by
  intro client ks ones
  have hheld : ks.held [107] = some (.string (Bytes.ofString "foobar")) := by decide +kernel
  obtain ⟨-, -, hranges⟩ := bits_counted_are_read hheld (by decide +kernel) client
  have hbytes : Span.clampBytes? (-2 : Int64).toInt (100 : Int64).toInt
      (Bytes.ofString "foobar").length = some ⟨4, 6⟩ := by decide +kernel
  have hbits : Span.clampBytes? (5 : Int64).toInt (-2 : Int64).toInt
      (8 * (Bytes.ofString "foobar").length) = some ⟨5, 47⟩ := by decide +kernel
  obtain ⟨-, hcounted, -⟩ := hranges (-2) 100
  obtain ⟨-, -, hcounted', -⟩ := hranges 5 (-2)
  rw [hbytes] at hcounted
  rw [hbits] at hcounted'
  exact ⟨hheld, hcounted, hcounted'⟩

end Command
end RespStore
