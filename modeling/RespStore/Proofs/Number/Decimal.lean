import RespStore.Number.Decimal
import RespStore.Result

/-! Decimal text reads back as the integer that it was written for. -/
namespace RespStore.Decimal

def digit (d : Nat) : UInt8 := UInt8.ofNat (48 + d)

theorem ofString_digitChar : ∀ d < 10,
    Bytes.ofString (String.singleton (Nat.digitChar d)) = [digit d] := by
  decide

theorem digit?_digit : ∀ d < 10, digit? (digit d) = some d := by
  decide

theorem digit_ne_sign : ∀ d < 10, digit d ≠ 43 ∧ digit d ≠ 45 := by
  decide

theorem ofString_repr_of_lt {n : Nat} (h : n < 10) : Bytes.ofString n.repr = [digit n] := by
  rw [Nat.repr_of_lt h, ofString_digitChar n h]

theorem ofString_repr_of_ge {n : Nat} (h : 10 ≤ n) :
    Bytes.ofString n.repr = Bytes.ofString (n / 10).repr ++ [digit (n % 10)] := by
  have hlast : n % 10 < 10 := Nat.mod_lt n (by omega)
  rw [Nat.repr_of_ge h, Bytes.ofString_append, ofString_digitChar _ hlast]

theorem readDigits_append (limit : Nat) (beyond : IntegerError) (acc : Nat) (ds es : Bytes) :
    readDigits limit beyond acc (ds ++ es) =
      (readDigits limit beyond acc ds).bind fun n => readDigits limit beyond n es := by
  induction ds generalizing acc with
  | nil => rfl
  | cons b rest ih =>
    simp only [List.cons_append, readDigits]
    split
    · rfl
    · split
      · rfl
      · exact ih _

theorem readDigits_repr (limit : Nat) (beyond : IntegerError) (n : Nat) (h : n ≤ limit) :
    readDigits limit beyond 0 (Bytes.ofString n.repr) = .ok n := by
  induction n using Nat.strongRecOn with
  | ind n ih =>
    by_cases hn : n < 10
    · rw [ofString_repr_of_lt hn, readDigits, digit?_digit n hn]
      simp only [Nat.zero_mul, Nat.zero_add, readDigits, if_neg (Nat.not_lt.2 h)]
    · have hshorter : n / 10 < n := by omega
      have hlast : n % 10 < 10 := by omega
      have hn : n / 10 * 10 + n % 10 = n := by omega
      rw [ofString_repr_of_ge (by omega), readDigits_append, ih _ hshorter (by omega)]
      simp only [Except.bind, readDigits, digit?_digit _ hlast, hn, if_neg (Nat.not_lt.2 h)]

theorem ofString_repr_eq_cons (n : Nat) :
    ∃ d < 10, ∃ rest, Bytes.ofString n.repr = digit d :: rest := by
  induction n using Nat.strongRecOn with
  | ind n ih =>
    by_cases hn : n < 10
    · exact ⟨n, hn, [], ofString_repr_of_lt hn⟩
    · obtain ⟨d, hd, rest, hrest⟩ := ih (n / 10) (by omega)
      refine ⟨d, hd, rest ++ [digit (n % 10)], ?_⟩
      rw [ofString_repr_of_ge (by omega), hrest, List.cons_append]

theorem digit_ne_newline : ∀ d < 10, digit d ≠ 10 := by
  decide

theorem newline_not_mem_repr (n : Nat) : 10 ∉ Bytes.ofString n.repr := by
  induction n using Nat.strongRecOn with
  | ind n ih =>
    by_cases hn : n < 10
    · rw [ofString_repr_of_lt hn, List.mem_singleton]
      exact (digit_ne_newline n hn).symm
    · have hlast : n % 10 < 10 := by omega
      rw [ofString_repr_of_ge (by omega), List.mem_append, List.mem_singleton]
      rintro (h | h)
      · exact ih _ (by omega) h
      · exact digit_ne_newline _ hlast h.symm

theorem bytes_natCast (n : Nat) : bytes (n : Int) = Bytes.ofString n.repr := rfl

theorem bytes_neg (n : Nat) : bytes (-((n : Int) + 1)) = 45 :: Bytes.ofString (n + 1).repr := by
  have htext : toString (-((n : Int) + 1)) = "-" ++ (n + 1).repr := by
    rw [← Int.negSucc_eq]
    rfl
  rw [bytes, htext, Bytes.ofString_append]
  rfl

theorem newline_not_mem_bytes (n : Int) : 10 ∉ bytes n := by
  cases n with
  | ofNat n => exact newline_not_mem_repr n
  | negSucc n =>
    rw [Int.negSucc_eq, bytes_neg, List.mem_cons]
    rintro (h | h)
    · cases h
    · exact newline_not_mem_repr _ h

theorem read_bytes {r : IntegerRange} {n : Int} (h : r.Contains n) : read r (bytes n) = .ok n := by
  obtain ⟨hlo, hhi⟩ := h
  cases n with
  | ofNat n =>
    rw [Int.ofNat_eq_natCast] at hhi
    have hlimit : n ≤ r.hi.toNat := by omega
    obtain ⟨d, hd, rest, hrest⟩ := ofString_repr_eq_cons n
    obtain ⟨hplus, hminus⟩ := digit_ne_sign d hd
    rw [Int.ofNat_eq_natCast, bytes_natCast, hrest, read, if_neg hplus, if_neg hminus, ← hrest]
    have hread := readDigits_repr r.hi.toNat .tooLarge n hlimit
    rw [hrest] at hread ⊢
    rw [readUnsigned, hread]
    · rfl
    · nofun
  | negSucc n =>
    have hlimit : n + 1 ≤ r.lo.natAbs := by omega
    have hneg : r.lo < 0 := by omega
    obtain ⟨d, hd, rest, hrest⟩ := ofString_repr_eq_cons (n + 1)
    have hread := readDigits_repr r.lo.natAbs .tooSmall (n + 1) hlimit
    rw [Int.negSucc_eq, bytes_neg, read, if_neg (by decide), if_pos rfl]
    rw [hrest] at hread ⊢
    rw [readNegative, if_pos hneg, hread]
    · rfl
    · nofun

theorem readDigits_of_le {limit limit' : Nat} (hle : limit ≤ limit') (beyond : IntegerError)
    {acc n : Nat} {ds : Bytes} (h : readDigits limit beyond acc ds = .ok n) :
    readDigits limit' beyond acc ds = .ok n := by
  induction ds generalizing acc with
  | nil => exact h
  | cons b rest ih =>
    simp only [readDigits] at h ⊢
    split at h
    · cases h
    · split at h
      · cases h
      · rw [if_neg (by omega)]
        exact ih h

theorem le_of_readDigits {limit : Nat} {beyond : IntegerError} {acc n : Nat} {ds : Bytes}
    (hacc : acc ≤ limit) (h : readDigits limit beyond acc ds = .ok n) : n ≤ limit := by
  induction ds generalizing acc with
  | nil =>
    cases h
    exact hacc
  | cons b rest ih =>
    simp only [readDigits] at h
    split at h
    · cases h
    · split at h
      · cases h
      · exact ih (by omega) h

theorem eq_of_readDigits_repr {limit n m : Nat} {beyond : IntegerError}
    (h : readDigits limit beyond 0 (Bytes.ofString n.repr) = .ok m) : m = n ∧ n ≤ limit := by
  have hm := le_of_readDigits (Nat.zero_le limit) h
  have hwider := readDigits_of_le (Nat.le_max_left limit n) beyond h
  rw [readDigits_repr _ beyond n (Nat.le_max_right limit n)] at hwider
  cases hwider
  exact ⟨rfl, hm⟩

theorem eq_of_read_natCast {r : IntegerRange} {n : Nat} {m : Int}
    (h : read r (bytes n) = .ok m) : m = n ∧ n ≤ r.hi.toNat := by
  obtain ⟨d, hd, rest, hrest⟩ := ofString_repr_eq_cons n
  obtain ⟨hplus, hminus⟩ := digit_ne_sign d hd
  rw [bytes_natCast, hrest, read, if_neg hplus, if_neg hminus, readUnsigned, ← hrest] at h
  · obtain ⟨k, hk, rfl⟩ := map_eq_ok_iff.1 h
    obtain ⟨rfl, hle⟩ := eq_of_readDigits_repr hk
    exact ⟨rfl, hle⟩
  · nofun

theorem readInt64_bytes (n : Int64) : readInt64 (bytes n.toInt) = .ok n := by
  have hlo := Int64.le_toInt n
  have hhi := Int64.toInt_lt n
  have hle : n.toInt ≤ 9223372036854775807 := by omega
  have hn : IntegerRange.int64.Contains n.toInt := ⟨hlo, hle⟩
  rw [readInt64, read_bytes hn]
  exact congrArg Except.ok (Int64.ofInt_toInt n)

end RespStore.Decimal
