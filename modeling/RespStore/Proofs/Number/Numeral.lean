import RespStore.Proofs.Number.Decimal

/-! Decimal numerals as a grammar: digits, after a sign or none. -/
namespace RespStore.Decimal

/-- Digits, at least one and leading zeros among them, and the number they stand for. -/
inductive Digits : Bytes → Nat → Prop
  | one {d : Nat} (hd : d < 10) : Digits [digit d] d
  | more {b : Bytes} {n d : Nat} (h : Digits b n) (hd : d < 10) :
      Digits (b ++ [digit d]) (n * 10 + d)

/-- Digits after one sign or none, and the integer they stand for. -/
inductive Numeral : Bytes → Int → Prop
  | bare {b : Bytes} {n : Nat} (h : Digits b n) : Numeral b n
  | plus {b : Bytes} {n : Nat} (h : Digits b n) : Numeral (43 :: b) n
  | minus {b : Bytes} {n : Nat} (h : Digits b n) : Numeral (45 :: b) (-n)

variable {b : Bytes} {n : Nat} {k : Int}

theorem eq_digit_of_digit? {x : UInt8} {d : Nat} (h : digit? x = some d) :
    d < 10 ∧ x = digit d := by
  unfold digit? isDigit at h
  split at h
  · next hx =>
    cases h
    simp only [Bool.and_eq_true, decide_eq_true_eq, UInt8.le_iff_toNat_le] at hx
    have hlow : 48 ≤ x.toNat := hx.1
    have hhigh : x.toNat ≤ 57 := hx.2
    refine ⟨by omega, ?_⟩
    rw [digit, Nat.add_sub_cancel' hlow, UInt8.ofNat_toNat]
  · cases h

theorem Digits.eq_cons (h : Digits b n) : ∃ d < 10, ∃ rest, b = digit d :: rest := by
  induction h with
  | one hd => exact ⟨_, hd, [], rfl⟩
  | more _ hd ih =>
    obtain ⟨first, hfirst, rest, rfl⟩ := ih
    exact ⟨first, hfirst, rest ++ [_], rfl⟩

theorem Digits.newline_not_mem (h : Digits b n) : 10 ∉ b := by
  induction h with
  | one hd => simpa using (digit_ne_newline _ hd).symm
  | more _ hd ih =>
    rw [List.mem_append, List.mem_singleton]
    rintro (hmem | heq)
    · exact ih hmem
    · exact digit_ne_newline _ hd heq.symm

theorem Digits.eq_ofString (h : Digits b n) : ∃ s, Bytes.ofString s = b := by
  induction h with
  | one hd => exact ⟨_, ofString_digitChar _ hd⟩
  | more _ hd ih =>
    obtain ⟨s, rfl⟩ := ih
    exact ⟨s ++ String.singleton (Nat.digitChar _),
      by rw [Bytes.ofString_append, ofString_digitChar _ hd]⟩

theorem Numeral.newline_not_mem (h : Numeral b k) : 10 ∉ b := by
  cases h with
  | bare h => exact h.newline_not_mem
  | plus h | minus h =>
    rw [List.mem_cons]
    rintro (hsign | hmem)
    · cases hsign
    · exact h.newline_not_mem hmem

theorem Numeral.eq_ofString (h : Numeral b k) : ∃ s, Bytes.ofString s = b := by
  cases h with
  | bare h => exact h.eq_ofString
  | plus h =>
    obtain ⟨s, rfl⟩ := h.eq_ofString
    exact ⟨"+" ++ s, Bytes.ofString_append "+" s⟩
  | minus h =>
    obtain ⟨s, rfl⟩ := h.eq_ofString
    exact ⟨"-" ++ s, Bytes.ofString_append "-" s⟩

/-- By induction on the digits; the accumulator of the reader holds what those before the last
stand for. -/
theorem readDigits_of_digits {limit : Nat} {beyond : IntegerError} (h : Digits b n)
    (hn : n ≤ limit) : readDigits limit beyond 0 b = .ok n := by
  induction h with
  | one hd => simp only [readDigits, digit?_digit _ hd, Nat.zero_mul, Nat.zero_add,
      if_neg (Nat.not_lt.2 hn)]
  | more _ hd ih =>
    rw [readDigits_append, ih (by omega)]
    simp only [Except.bind, readDigits, digit?_digit _ hd, if_neg (Nat.not_lt.2 hn)]

/-- The reader goes on from digits that it has read. By induction on what is left. -/
theorem digits_append_of_readDigits {limit acc : Nat} {beyond : IntegerError} {before : Bytes}
    (hbefore : Digits before acc) (h : readDigits limit beyond acc b = .ok n) :
    Digits (before ++ b) n := by
  induction b generalizing before acc with
  | nil =>
    cases h
    rwa [List.append_nil]
  | cons x rest ih =>
    simp only [readDigits] at h
    split at h
    · cases h
    · next d hx =>
      obtain ⟨hd, rfl⟩ := eq_digit_of_digit? hx
      split at h
      · cases h
      · rw [List.append_cons]
        exact ih (hbefore.more hd) h

theorem digits_of_readDigits {limit : Nat} {beyond : IntegerError} (hb : b ≠ [])
    (h : readDigits limit beyond 0 b = .ok n) : Digits b n := by
  cases b with
  | nil => exact absurd rfl hb
  | cons x rest =>
    simp only [readDigits, Nat.zero_mul, Nat.zero_add] at h
    split at h
    · cases h
    · next d hx =>
      obtain ⟨hd, rfl⟩ := eq_digit_of_digit? hx
      split at h
      · cases h
      · exact digits_append_of_readDigits (.one hd) h

theorem readDigits_eq_ok_iff {limit : Nat} {beyond : IntegerError} (hb : b ≠ []) :
    readDigits limit beyond 0 b = .ok n ↔ Digits b n ∧ n ≤ limit :=
  ⟨fun h => ⟨digits_of_readDigits hb h, le_of_readDigits (Nat.zero_le limit) h⟩,
    fun h => readDigits_of_digits h.1 h.2⟩

variable {r : IntegerRange}

theorem readUnsigned_eq_ok_iff (hhi : 0 ≤ r.hi) :
    readUnsigned r b = .ok k ↔ ∃ n : Nat, Digits b n ∧ (n : Int) ≤ r.hi ∧ k = n := by
  unfold readUnsigned
  split
  · refine ⟨nofun, ?_⟩
    rintro ⟨n, h, -⟩
    obtain ⟨_, -, _, hcons⟩ := h.eq_cons
    cases hcons
  · next hb =>
    simp only [map_eq_ok_iff, readDigits_eq_ok_iff hb]
    constructor
    · rintro ⟨n, ⟨h, hle⟩, rfl⟩
      exact ⟨n, h, by omega, rfl⟩
    · rintro ⟨n, h, hle, rfl⟩
      exact ⟨n, ⟨h, by omega⟩, rfl⟩

theorem readNegative_eq_ok_iff (hlo : r.lo < 0) :
    readNegative r b = .ok k ↔ ∃ n : Nat, Digits b n ∧ r.lo ≤ -(n : Int) ∧ k = -n := by
  unfold readNegative
  split
  · refine ⟨nofun, ?_⟩
    rintro ⟨n, h, -⟩
    obtain ⟨_, -, _, hcons⟩ := h.eq_cons
    cases hcons
  · next hb =>
    simp only [if_pos hlo, map_eq_ok_iff, readDigits_eq_ok_iff hb]
    constructor
    · rintro ⟨n, ⟨h, hle⟩, rfl⟩
      exact ⟨n, h, by omega, rfl⟩
    · rintro ⟨n, h, hle, rfl⟩
      exact ⟨n, ⟨h, by omega⟩, rfl⟩

/-- An integer of a range with signs is read from exactly the numerals that stand for it. -/
theorem read_eq_ok_iff (hlo : r.lo < 0) (hhi : 0 ≤ r.hi) :
    read r b = .ok k ↔ Numeral b k ∧ r.Contains k := by
  unfold IntegerRange.Contains
  constructor
  · intro h
    cases b with
    | nil => cases h
    | cons x rest =>
      rw [read] at h
      split at h
      · next hx =>
        obtain ⟨n, hn, hle, rfl⟩ := (readUnsigned_eq_ok_iff hhi).1 h
        exact ⟨hx ▸ .plus hn, by omega, hle⟩
      · split at h
        · next hx =>
          obtain ⟨n, hn, hle, rfl⟩ := (readNegative_eq_ok_iff hlo).1 h
          exact ⟨hx ▸ .minus hn, hle, by omega⟩
        · obtain ⟨n, hn, hle, rfl⟩ := (readUnsigned_eq_ok_iff hhi).1 h
          exact ⟨.bare hn, by omega, hle⟩
  · rintro ⟨hk, hlow, hhigh⟩
    cases hk with
    | @bare _ n h =>
      obtain ⟨d, hd, rest, rfl⟩ := h.eq_cons
      -- No digit is taken for a sign.
      obtain ⟨hplus, hminus⟩ := digit_ne_sign d hd
      rw [read, if_neg hplus, if_neg hminus]
      exact (readUnsigned_eq_ok_iff hhi).2 ⟨n, h, hhigh, rfl⟩
    | @plus _ n h =>
      rw [read, if_pos rfl]
      exact (readUnsigned_eq_ok_iff hhi).2 ⟨n, h, hhigh, rfl⟩
    | @minus _ n h =>
      rw [read, if_neg (by decide), if_pos rfl]
      exact (readNegative_eq_ok_iff hlo).2 ⟨n, h, hlow, rfl⟩

theorem int64_contains_iff : IntegerRange.int64.Contains k ↔
    -9223372036854775808 ≤ k ∧ k ≤ 9223372036854775807 := Iff.rfl

theorem readInt64_eq_ok_iff {n : Int64} : readInt64 b = .ok n ↔ Numeral b n.toInt := by
  unfold readInt64
  rw [map_eq_ok_iff]
  simp only [read_eq_ok_iff (r := .int64) (by decide) (by decide), int64_contains_iff]
  constructor
  · rintro ⟨k, ⟨hk, hlow, hhigh⟩, rfl⟩
    rwa [Int64.toInt_ofInt_of_le hlow (by omega)]
  · intro h
    have hlow := Int64.le_toInt n
    have hhigh := Int64.toInt_lt n
    exact ⟨n.toInt, ⟨h, by omega, by omega⟩, Int64.ofInt_toInt n⟩

end RespStore.Decimal
