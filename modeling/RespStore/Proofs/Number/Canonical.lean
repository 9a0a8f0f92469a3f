import RespStore.Proofs.Number.Numeral

/-! Canonical decimal text: no plus sign, no leading zeros, and no sign before zero. -/
namespace RespStore.Decimal

/-- The canonical text of an integer: zero, or digits of which the first is no zero, after a minus
sign for a negative one. -/
inductive Canonical : Bytes → Int → Prop
  | zero : Canonical [digit 0] 0
  | positive {b : Bytes} {n : Nat} (h : Digits b n) (hfirst : b.head? ≠ some (digit 0)) :
      Canonical b n
  | negative {b : Bytes} {n : Nat} (h : Digits b n) (hfirst : b.head? ≠ some (digit 0)) :
      Canonical (45 :: b) (-n)

variable {b : Bytes} {n : Nat} {k : Int}

theorem digit_ne_zero : ∀ d < 10, 0 < d → digit d ≠ digit 0 := by
  decide

theorem Digits.head?_append (h : Digits b n) (e : Bytes) : (b ++ e).head? = b.head? := by
  obtain ⟨d, -, rest, rfl⟩ := h.eq_cons
  rfl

theorem Digits.pos (h : Digits b n) (hfirst : b.head? ≠ some (digit 0)) : 0 < n := by
  induction h with
  | @one d hd =>
    apply Nat.pos_of_ne_zero
    rintro rfl
    exact hfirst rfl
  | more h _ ih =>
    rw [h.head?_append] at hfirst
    have hpos := ih hfirst
    omega

/-- By induction on the digits: each makes the text of a number of ten or more from that of a tenth
of it. -/
theorem Digits.eq_ofString_repr (h : Digits b n) (hfirst : b.head? ≠ some (digit 0)) :
    b = Bytes.ofString n.repr := by
  induction h with
  | one hd => rw [ofString_repr_of_lt hd]
  | @more b n d h hd ih =>
    rw [h.head?_append] at hfirst
    have hpos := h.pos hfirst
    have htenth : (n * 10 + d) / 10 = n := by omega
    have hlast : (n * 10 + d) % 10 = d := by omega
    rw [ofString_repr_of_ge (by omega), htenth, hlast, ← ih hfirst]

theorem digits_repr (n : Nat) : Digits (Bytes.ofString n.repr) n := by
  have hread := readDigits_repr n .tooLarge n (Nat.le_refl n)
  obtain ⟨d, -, rest, hrest⟩ := ofString_repr_eq_cons n
  refine digits_of_readDigits ?_ hread
  rw [hrest]
  nofun

theorem head?_repr_ne (hn : 0 < n) : (Bytes.ofString n.repr).head? ≠ some (digit 0) := by
  induction n using Nat.strongRecOn with
  | ind n ih =>
    by_cases hlt : n < 10
    · rw [ofString_repr_of_lt hlt]
      simpa using digit_ne_zero n hlt hn
    · rw [ofString_repr_of_ge (by omega), (digits_repr (n / 10)).head?_append]
      exact ih (n / 10) (by omega) (by omega)

theorem canonical_bytes (k : Int) : Canonical (bytes k) k := by
  cases k with
  | ofNat n =>
    rw [Int.ofNat_eq_natCast, bytes_natCast]
    rcases Nat.eq_zero_or_pos n with rfl | hn
    · exact .zero
    · exact .positive (digits_repr n) (head?_repr_ne hn)
  | negSucc n =>
    rw [Int.negSucc_eq, bytes_neg]
    exact .negative (digits_repr (n + 1)) (head?_repr_ne (Nat.succ_pos n))

theorem canonical_iff : Canonical b k ↔ b = bytes k := by
  constructor
  · intro h
    cases h with
    | zero => rfl
    | positive h hfirst => exact h.eq_ofString_repr hfirst
    | @negative b n h hfirst =>
      obtain ⟨m, rfl⟩ := Nat.exists_eq_succ_of_ne_zero (Nat.ne_of_gt (h.pos hfirst))
      rw [h.eq_ofString_repr hfirst]
      exact (bytes_neg m).symm
  · rintro rfl
    exact canonical_bytes k

variable {r : IntegerRange}

theorem contains_of_read (hzero : r.Contains 0) (h : read r b = .ok k) : r.Contains k := by
  obtain ⟨hlo, hhi⟩ := hzero
  have hunsigned {b : Bytes} (h : readUnsigned r b = .ok k) : r.Contains k := by
    obtain ⟨n, -, hn, rfl⟩ := (readUnsigned_eq_ok_iff hhi).1 h
    exact ⟨by omega, hn⟩
  cases b with
  | nil => cases h
  | cons x rest =>
    rw [read] at h
    split at h
    · exact hunsigned h
    · split at h
      · by_cases hneg : r.lo < 0
        · obtain ⟨n, -, hn, rfl⟩ := (readNegative_eq_ok_iff hneg).1 h
          exact ⟨hn, by omega⟩
        · unfold readNegative at h
          split at h
          · cases h
          · rw [if_neg hneg] at h
            cases h
      · exact hunsigned h

theorem readCanonical?_eq_some_iff (hzero : r.Contains 0) :
    readCanonical? r b = some k ↔ Canonical b k ∧ r.Contains k := by
  rw [canonical_iff]
  unfold readCanonical?
  constructor
  · intro h
    split at h
    · next hread =>
      split at h
      · next htext =>
        cases h
        exact ⟨htext.symm, contains_of_read hzero hread⟩
      · cases h
    · cases h
  · rintro ⟨rfl, hk⟩
    rw [read_bytes hk]
    exact if_pos rfl

end RespStore.Decimal
