import RespStore.Bytes

/-! Reading any byte string as text: what is not UTF-8 becomes replacement characters. -/
namespace RespStore.Text

/-- How many bytes follow a lead byte, and between which bounds the first of them lies. -/
private def continuation? (lead : UInt8) : Option (Nat × UInt8 × UInt8) :=
  if lead < 0xC2 then none
  else if lead < 0xE0 then some (1, 0x80, 0xBF)
  else if lead = 0xE0 then some (2, 0xA0, 0xBF)
  else if lead = 0xED then some (2, 0x80, 0x9F)
  else if lead < 0xF0 then some (2, 0x80, 0xBF)
  else if lead = 0xF0 then some (3, 0x90, 0xBF)
  else if lead < 0xF4 then some (3, 0x80, 0xBF)
  else if lead = 0xF4 then some (3, 0x80, 0x8F)
  else none

/-- How many of the `count` next bytes continue a character whose next byte lies in a range. -/
private def continued : Nat → UInt8 → UInt8 → Bytes → Nat
  | count + 1, lo, hi, b :: rest =>
    if lo ≤ b ∧ b ≤ hi then continued count 0x80 0xBF rest + 1 else 0
  | _, _, _, _ => 0

/-- The code point of a lead byte with `bits` value bits and its continuation bytes. -/
private def codePoint (lead : UInt8) (bits : Nat) (more : Bytes) : Nat :=
  more.foldl (fun acc b => acc * 64 + b.toNat % 64) (lead.toNat % Nat.pow 2 bits)

/-- The first character, or the replacement character for a longest prefix that could start one,
and the number of bytes after the first that it takes. -/
private def next (lead : UInt8) (rest : Bytes) : Char × Nat :=
  if lead < 0x80 then (Char.ofNat lead.toNat, 0)
  else
    match continuation? lead with
    | none => ('\ufffd', 0)
    | some (count, lo, hi) =>
      let taken := continued count lo hi rest
      if taken = count then (Char.ofNat (codePoint lead (6 - count) (rest.take count)), count)
      else ('\ufffd', taken)

private def lossyChars : Bytes → List Char
  | [] => []
  | lead :: rest =>
    let (c, taken) := next lead rest
    c :: lossyChars (rest.drop taken)
termination_by b => b.length
decreasing_by simp only [List.length_drop, List.length_cons]; omega

/-- Every longest ill-formed piece is shown as one replacement character. -/
def lossy (b : Bytes) : String := String.ofList (lossyChars b)

/-! Reading bytes as text neither loses a slash nor makes one. -/

private theorem eq_slash_of_ofNat {n : Nat} (h : Char.ofNat n = '/') : n = 47 := by
  by_cases hn : n.isValidChar
  · have hval : (Char.ofNat n).toNat = n := by
      rw [Char.ofNat, dif_pos hn]
      exact UInt32.toNat_ofNatLT
    rw [h] at hval
    exact hval.symm
  · rw [Char.ofNat, dif_neg hn] at h
    cases h

private theorem mul_pow_le_foldl (acc : Nat) (more : Bytes) :
    acc * Nat.pow 64 more.length ≤ more.foldl (fun acc b => acc * 64 + b.toNat % 64) acc := by
  induction more generalizing acc with
  | nil => simp
  | cons b rest ih =>
    have hfirst : acc * 64 ≤ acc * 64 + b.toNat % 64 := Nat.le_add_right _ _
    have hpower : Nat.pow 64 (b :: rest).length = Nat.pow 64 rest.length * 64 := rfl
    calc acc * Nat.pow 64 (b :: rest).length
      _ = acc * 64 * Nat.pow 64 rest.length := by
        rw [hpower, Nat.mul_assoc, Nat.mul_comm 64]
      _ ≤ (acc * 64 + b.toNat % 64) * Nat.pow 64 rest.length := Nat.mul_le_mul_right _ hfirst
      _ ≤ _ := ih _

private theorem le_continuation {lead lo hi : UInt8} {count : Nat}
    (h : continuation? lead = some (count, lo, hi)) : 0x80 ≤ lo ∧ 1 ≤ count := by
  unfold continuation? at h
  repeat' split at h
  all_goals cases h
  all_goals decide

private theorem le_of_mem_continued {count : Nat} {lo hi b : UInt8} {rest : Bytes} (hlo : 0x80 ≤ lo)
    (hb : b ∈ rest.take (continued count lo hi rest)) : 0x80 ≤ b := by
  induction rest generalizing count lo hi with
  | nil => cases count <;> simp at hb
  | cons first rest ih =>
    cases count with
    | zero => simp [continued] at hb
    | succ count =>
      unfold continued at hb
      split at hb
      · next hfirst =>
        rcases List.mem_cons.1 hb with rfl | hb
        · exact UInt8.le_trans hlo hfirst.1
        · exact ih (by decide) hb
      · cases hb

private theorem continued_le_length (count : Nat) (lo hi : UInt8) (rest : Bytes) :
    continued count lo hi rest ≤ rest.length := by
  induction rest generalizing count lo hi with
  | nil => cases count <;> exact Nat.le_refl 0
  | cons first rest ih =>
    cases count with
    | zero => exact Nat.zero_le _
    | succ count =>
      unfold continued
      split
      · exact Nat.succ_le_succ (ih count _ _)
      · exact Nat.zero_le _

private theorem take_of_continued {count : Nat} {lo hi : UInt8} {rest : Bytes} (hcount : 1 ≤ count)
    (h : continued count lo hi rest = count) :
    ∃ b more, rest.take count = b :: more ∧ lo ≤ b ∧ b ≤ hi ∧ more.length + 1 = count := by
  obtain ⟨n, rfl⟩ : ∃ n, count = n + 1 := ⟨count - 1, by omega⟩
  cases rest with
  | nil => cases h
  | cons b rest =>
    have hlength := continued_le_length n 0x80 0xBF rest
    unfold continued at h
    split at h
    · next hb =>
      refine ⟨b, rest.take n, rfl, hb.1, hb.2, ?_⟩
      rw [List.length_take]
      omega
    · cases h

/-- A character of more than one byte is no ASCII character: where the lead byte adds nothing to its
value, the first byte after it has to. -/
private theorem le_codePoint {lead lo hi b : UInt8} {count : Nat} {more : Bytes}
    (h : continuation? lead = some (count, lo, hi)) (hlo : lo ≤ b) (hhi : b ≤ hi)
    (hmore : more.length + 1 = count) : 128 ≤ codePoint lead (6 - count) (b :: more) := by
  have hleast : 128 ≤
      (lead.toNat % Nat.pow 2 (6 - count) * 64 + b.toNat % 64) * 64 ^ more.length := by
    have htwo : Nat.pow 2 5 = 32 := rfl
    have hthree : Nat.pow 2 4 = 16 := rfl
    have hfour : Nat.pow 2 3 = 8 := rfl
    unfold continuation? at h
    simp only [UInt8.lt_iff_toNat_lt, UInt8.le_iff_toNat_le, ← UInt8.toNat_inj] at h hlo hhi
    repeat' split at h
    all_goals cases h
    all_goals
      rw [Nat.succ.inj hmore]
      simp only [UInt8.toNat_ofNat, Nat.reducePow, Nat.reduceMod, Nat.reduceSub, htwo, hthree,
        hfour] at *
      omega
  exact Nat.le_trans hleast (mul_pow_le_foldl _ more)

private theorem next_fst_eq_slash_iff (lead : UInt8) (rest : Bytes) :
    (next lead rest).1 = '/' ↔ lead = 47 := by
  unfold next
  split
  · constructor
    · intro h
      exact UInt8.toNat_inj.1 (eq_slash_of_ofNat h)
    · rintro rfl
      rfl
  · next hlead =>
    have hne : lead ≠ 47 := by
      rintro rfl
      exact hlead (by decide)
    refine iff_of_false ?_ hne
    split
    · decide
    · next count lo hi hcontinuation =>
      dsimp only
      split
      · next hwhole =>
        intro hslash
        obtain ⟨-, hcount⟩ := le_continuation hcontinuation
        obtain ⟨b, more, htake, hlo, hhi, hmore⟩ := take_of_continued hcount hwhole
        have hleast := le_codePoint hcontinuation hlo hhi hmore
        rw [htake] at hslash
        have hpoint := eq_slash_of_ofNat hslash
        omega
      · nofun

private theorem slash_not_mem_taken (lead : UInt8) (rest : Bytes) :
    47 ∉ rest.take (next lead rest).2 := by
  unfold next
  split
  · simp
  · split
    · simp
    · next count lo hi hcontinuation =>
      intro hslash
      have htaken : 47 ∈ rest.take (continued count lo hi rest) := by
        dsimp only at hslash
        split at hslash
        · next hwhole => rwa [hwhole]
        · exact hslash
      exact absurd (le_of_mem_continued (le_continuation hcontinuation).1 htaken) (by decide)

private theorem slash_mem_lossyChars_iff (b : Bytes) : '/' ∈ lossyChars b ↔ 47 ∈ b := by
  induction b using lossyChars.induct with
  | case1 => simp [lossyChars]
  | case2 lead rest c taken hnext ih =>
    have hfirst := next_fst_eq_slash_iff lead rest
    have htaken := slash_not_mem_taken lead rest
    rw [hnext] at hfirst htaken
    have hsplit : 47 ∈ rest ↔ 47 ∈ rest.take taken ∨ 47 ∈ rest.drop taken := by
      rw [← List.mem_append, List.take_append_drop]
    dsimp only at hfirst htaken
    rw [lossyChars, hnext]
    simp only [List.mem_cons, ih, hsplit, htaken, false_or, eq_comm (b := c), hfirst,
      eq_comm (b := lead)]

/-- A slash is in the text of a byte string exactly if it is among the bytes. -/
theorem slash_mem_lossy_iff (b : Bytes) : '/' ∈ (lossy b).toList ↔ 47 ∈ b := by
  rw [lossy, String.toList_ofList]
  exact slash_mem_lossyChars_iff b

end RespStore.Text
