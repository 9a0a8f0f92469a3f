import RespStore.Proofs.Number.Numeral
import RespStore.Proofs.Request.Argument

/-! Words and numbers in requests, in simple or bulk strings. -/
namespace RespStore

namespace Bytes

theorem ofString_singleton_ascii :
    ∀ n < 128, ofString (String.singleton (Char.ofNat n)) = [UInt8.ofNat n] := by
  decide +kernel

theorem exists_ofString_of_ascii {data : Bytes} (h : ∀ b ∈ data, b.toNat < 128) :
    ∃ text, ofString text = data := by
  induction data with
  | nil => exact ⟨"", rfl⟩
  | cons b rest ih =>
    obtain ⟨hb, hrest⟩ := List.forall_mem_cons.1 h
    obtain ⟨text, htext⟩ := ih hrest
    refine ⟨String.singleton (Char.ofNat b.toNat) ++ text, ?_⟩
    rw [ofString_append, ofString_singleton_ascii b.toNat hb, htext, UInt8.ofNat_toNat]
    rfl

end Bytes

namespace Text

theorem lowerAscii_lt_iff (b : UInt8) : (lowerAscii b).toNat < 128 ↔ b.toNat < 128 := by
  unfold lowerAscii
  split
  · next h =>
    have hhigh : b.toNat ≤ 90 := h.2
    have hsum : (b + 32).toNat = b.toNat + 32 := by
      rw [UInt8.toNat_add]
      have hsmall : b.toNat + 32 < 256 := by omega
      exact Nat.mod_eq_of_lt hsmall
    omega
  · rfl

theorem spells_iff {data : Bytes} {word : String} :
    spells data word = true ↔ data.map lowerAscii = (Bytes.ofString word).map lowerAscii :=
  beq_iff_eq

theorem exists_ofString_of_spells {data : Bytes} {word : String}
    (hword : ∀ b ∈ Bytes.ofString word, b.toNat < 128) (h : spells data word = true) :
    ∃ text, Bytes.ofString text = data := by
  refine Bytes.exists_ofString_of_ascii fun b hb => ?_
  have hmem : lowerAscii b ∈ (Bytes.ofString word).map lowerAscii := by
    rw [← spells_iff.1 h]
    exact List.mem_map_of_mem hb
  obtain ⟨c, hc, heq⟩ := List.mem_map.1 hmem
  have hlow : (lowerAscii b).toNat < 128 := by
    rw [← heq]
    exact (lowerAscii_lt_iff c).2 (hword c hc)
  exact (lowerAscii_lt_iff b).1 hlow

end Text

namespace Frame

variable {α : Type} {frame : Frame}

/-- A string that spells a word, whatever the case of its ASCII letters. -/
def Spells (frame : Frame) (word : String) : Prop :=
  ∃ data, frame.bytes = .ok data ∧ Text.spells data word = true

/-- An integer, or a string of a numeral that stands for it. -/
inductive States : Frame → Int64 → Prop
  | integer (n : Int64) : States (.integer n) n
  | numeral {frame : Frame} {data : Bytes} {n : Int64} (h : frame.bytes = .ok data)
      (hdata : Decimal.Numeral data n.toInt) : States frame n

theorem text_eq_ok_iff {text : String} :
    frame.text = .ok text ↔ frame.bytes = .ok (Bytes.ofString text) := by
  cases frame with
  | simple s =>
    simp only [Frame.text, bytes, Except.ok.injEq]
    constructor
    · rintro rfl
      rfl
    · exact Bytes.ofString_injective
  | bulk data =>
    simp only [Frame.text, bytes, Except.ok.injEq]
    rw [@eq_comm _ data, ← Bytes.toString?_eq_some_iff]
    cases Bytes.toString? data with
    | none => simp
    | some s => simp
  | _ => simp [Frame.text, bytes]

theorem read_eq_ok_iff {text : String} {n : Int64} :
    int64.read text = .ok n ↔ Decimal.Numeral (Bytes.ofString text) n.toInt := by
  rw [← Decimal.readInt64_eq_ok_iff]
  unfold int64.read
  cases Decimal.readInt64 (Bytes.ofString text) <;> simp

theorem int64_eq_ok_iff {n : Int64} : frame.int64 = .ok n ↔ frame.States n := by
  constructor
  · intro h
    cases frame with
    | integer value =>
      cases h
      exact .integer n
    | simple text => exact .numeral rfl (read_eq_ok_iff.1 h)
    | bulk data =>
      rw [int64] at h
      split at h
      · next text htext =>
        have hnumeral := read_eq_ok_iff.1 h
        rw [Bytes.toString?_eq_some_iff.1 htext] at hnumeral
        exact .numeral rfl hnumeral
      · cases h
    | _ => cases h
  · intro h
    cases h with
    | integer => rfl
    | @numeral _ data _ hbytes hdata =>
      obtain ⟨text, rfl⟩ := hdata.eq_ofString
      have hread : int64.read text = .ok n := read_eq_ok_iff.2 hdata
      cases frame with
      | simple s =>
        obtain rfl : s = text := Bytes.ofString_injective (Except.ok.inj hbytes)
        exact hread
      | bulk data =>
        obtain rfl : data = Bytes.ofString text := Except.ok.inj hbytes
        rw [int64, Bytes.toString?_ofString]
        exact hread
      | _ => cases hbytes

theorem wordIn?_eq_some_iff {words : List (String × α)}
    (hwords : words.Pairwise fun v w => ¬ Text.spells (Bytes.ofString v.1) w.1 = true)
    {text : String} {meaning : α} : wordIn? words text = some meaning ↔
      ∃ word, (word, meaning) ∈ words ∧ Text.spells (Bytes.ofString text) word = true := by
  unfold wordIn?
  induction words with
  | nil => simp
  | cons first rest ih =>
    obtain ⟨hfirst, hrest⟩ := List.pairwise_cons.1 hwords
    by_cases h : Text.spells (Bytes.ofString text) first.1 = true
    · simp only [List.find?_cons, h, Option.map_some, Option.some.injEq]
      constructor
      · rintro rfl
        exact ⟨first.1, List.mem_cons_self, h⟩
      · rintro ⟨word, hmem, hspells⟩
        rcases List.mem_cons.1 hmem with heq | hmem
        · rw [← heq]
        · have hsame : Text.spells (Bytes.ofString first.1) word = true := by
            rw [Text.spells_iff, ← Text.spells_iff.1 h]
            exact Text.spells_iff.1 hspells
          exact absurd hsame (hfirst _ hmem)
    · simp only [List.find?_cons, h]
      rw [ih hrest]
      constructor
      · rintro ⟨word, hmem, hspells⟩
        exact ⟨word, List.mem_cons_of_mem _ hmem, hspells⟩
      · rintro ⟨word, hmem, hspells⟩
        rcases List.mem_cons.1 hmem with heq | hmem
        · rw [← heq] at h
          exact absurd hspells h
        · exact ⟨word, hmem, hspells⟩

theorem keyword_eq_ok_iff {words : List (String × α)}
    (hwords : words.Pairwise fun v w => ¬ Text.spells (Bytes.ofString v.1) w.1 = true)
    (hascii : ∀ w ∈ words, ∀ b ∈ Bytes.ofString w.1, b.toNat < 128) {meaning : α} :
    frame.keyword words = .ok meaning ↔ ∃ word, (word, meaning) ∈ words ∧ frame.Spells word := by
  constructor
  · intro h
    obtain ⟨text, htext, h⟩ := bind_eq_ok_iff.1 h
    split at h
    · next found hfound =>
      cases h
      obtain ⟨word, hmem, hspells⟩ := (wordIn?_eq_some_iff hwords).1 hfound
      exact ⟨word, hmem, _, text_eq_ok_iff.1 htext, hspells⟩
    · cases h
  · rintro ⟨word, hmem, data, hdata, hspells⟩
    obtain ⟨text, rfl⟩ := Text.exists_ofString_of_spells (hascii _ hmem) hspells
    have hfound : wordIn? words text = some meaning :=
      (wordIn?_eq_some_iff hwords).2 ⟨word, hmem, hspells⟩
    refine bind_eq_ok_iff.2 ⟨text, text_eq_ok_iff.2 hdata, ?_⟩
    rw [hfound]

end Frame
end RespStore
