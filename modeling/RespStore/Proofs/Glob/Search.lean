import RespStore.Glob.Search

/-! The matcher that the program runs with stops a single star at slashes. -/
namespace RespStore

namespace Bytes

theorem utf8EncodeChar_ascii {c : Char} (h : c.toNat < 128) :
    String.utf8EncodeChar c = [UInt8.ofNat c.toNat] :=
  if_pos (Nat.le_of_lt_succ h)

theorem le_of_mem_utf8EncodeChar {c : Char} (h : 128 ≤ c.toNat) {a : UInt8}
    (ha : a ∈ String.utf8EncodeChar c) : 128 ≤ a.toNat := by
  have h : 128 ≤ c.val.toNat := h
  unfold String.utf8EncodeChar at ha
  generalize c.val.toNat = v at h ha
  have hbyte (n : Nat) (hn : 128 ≤ n) (hn' : n < 256) : 128 ≤ (UInt8.ofNat n).toNat := by
    rwa [UInt8.toNat_ofNat_of_lt' hn']
  dsimp only at ha
  split at ha
  · omega
  · split at ha
    · simp only [List.mem_cons, List.not_mem_nil, or_false] at ha
      rcases ha with rfl | rfl <;> exact hbyte _ (by omega) (by omega)
    · split at ha
      · simp only [List.mem_cons, List.not_mem_nil, or_false] at ha
        rcases ha with rfl | rfl | rfl <;> exact hbyte _ (by omega) (by omega)
      · simp only [List.mem_cons, List.not_mem_nil, or_false] at ha
        rcases ha with rfl | rfl | rfl | rfl <;> exact hbyte _ (by omega) (by omega)

theorem slash_mem_utf8EncodeChar_iff (c : Char) : 47 ∈ String.utf8EncodeChar c ↔ c = '/' := by
  constructor
  · intro hmem
    by_cases h : c.toNat < 128
    · rw [utf8EncodeChar_ascii h, List.mem_singleton] at hmem
      have hbyte := congrArg UInt8.toNat hmem
      rw [UInt8.toNat_ofNat_of_lt' (show c.toNat < 256 by omega)] at hbyte
      exact Char.toNat_inj.1 hbyte.symm
    · have hbyte := le_of_mem_utf8EncodeChar (Nat.le_of_not_lt h) hmem
      exact absurd hbyte (by decide)
  · rintro rfl
    decide

theorem slash_mem_ofString_iff (s : String) : 47 ∈ ofString s ↔ '/' ∈ s.toList := by
  have hbytes : ofString s = s.toList.flatMap String.utf8EncodeChar := by
    rw [ofString, ← s.utf8Encode_toList, List.utf8Encode, List.toList_data_toByteArray]
  simp only [hbytes, List.mem_flatMap, slash_mem_utf8EncodeChar_iff, exists_eq_right]

end Bytes

namespace Glob

namespace Search

def atStar (i : Nat) (wild : Place) : Search := { spot := { glob := 0, path := i, wild } }

def pastStar (i : Nat) (wild : Place) : Search := { spot := { glob := 1, path := i, wild } }

variable {p : Text} {i fuel : Nat} {wild : Place}

/-- A star is passed, to be resumed from after the next byte unless that is a slash. -/
theorem step_atStar (p : Text) (i : Nat) (wild : Place) :
    step #[42] p false (atStar i wild) =
      .goOn (pastStar i ⟨0, if p[i]? = some 47 then 0 else i + 1⟩) := by
  by_cases hslash : p[i]? = some 47
  · simp [step, forward, star, atStar, pastStar, hslash]
  · simp [step, forward, star, atStar, pastStar, hslash]

theorem step_pastStar_at_end (p : Text) (wild : Place) :
    step #[42] p false (pastStar p.size wild) = .decide true := by
  simp [step, pastStar]

theorem step_pastStar (h : i < p.size) : step #[42] p false (pastStar i wild) =
    if 0 < wild.path ∧ wild.path ≤ p.size then
      .goOn { spot := { glob := wild.glob, path := wild.path, wild } }
    else .decide false := by
  have hforward : forward #[42] p (pastStar i wild) = .mismatch (pastStar i wild) := by
    simp [forward, pastStar]
  have htext : (pastStar i wild).spot.path < p.size := h
  simp only [step, hforward, htext, or_true, if_true, backtrack]
  by_cases hresume : 0 < wild.path ∧ wild.path ≤ p.size
  · simp [resume?, pastStar, move, hresume]
  · simp [resume?, pastStar, hresume]

/-- By induction on the text that is left: two steps pass over a byte that is no slash, and a search
that has passed the star cannot go back at a slash. -/
theorem run_atStar {left : Nat} (hleft : i + left = p.size) (hfuel : 2 * left + 2 ≤ fuel) :
    run #[42] p false fuel (atStar i wild) = decide (47 ∉ p.toList.drop i) := by
  induction left generalizing i fuel wild with
  | zero =>
    obtain ⟨fuel, rfl⟩ : ∃ n, fuel = n + 2 := ⟨fuel - 2, by omega⟩
    obtain rfl : i = p.size := hleft
    have hdrop : p.toList.drop p.size = [] := List.drop_of_length_le (Nat.le_refl _)
    simp [run, step_atStar, step_pastStar_at_end, hdrop]
  | succ left ih =>
    obtain ⟨fuel, rfl⟩ : ∃ n, fuel = n + 2 := ⟨fuel - 2, by omega⟩
    have hi : i < p.size := by omega
    have hbyte : p[i]? = some p[i] := Array.getElem?_eq_getElem hi
    have hdrop : p.toList.drop i = p[i] :: p.toList.drop (i + 1) :=
      List.drop_eq_getElem_cons (i := i) (l := p.toList) hi
    by_cases hslash : p[i] = 47
    · have hstop : step #[42] p false (pastStar i ⟨0, 0⟩) = .decide false := by
        rw [step_pastStar hi, if_neg (by simp)]
      simp [run, step_atStar, hbyte, hslash, hstop, hdrop]
    · have hnext : step #[42] p false (pastStar i ⟨0, i + 1⟩) =
          .goOn (atStar (i + 1) ⟨0, i + 1⟩) := by
        rw [step_pastStar hi, if_pos ⟨Nat.succ_pos i, hi⟩]
        rfl
      have hrest : run #[42] p false fuel (atStar (i + 1) ⟨0, i + 1⟩) =
          decide (47 ∉ p.toList.drop (i + 1)) := ih (by omega) (by omega)
      simp [run, step_atStar, hbyte, hslash, hnext, hrest, hdrop, Ne.symm hslash]

end Search

theorem accepts_star (path : Bytes) : accepts [42] path = decide (47 ∉ path) := by
  have hfuel : 2 * path.toArray.size + 2 ≤ searchFuel #[42] path.toArray := by
    have hpower : path.toArray.size + 2 ≤ Nat.pow (path.toArray.size + 2) (2 * maxOpen + 2) :=
      Nat.le_self_pow (by decide) _
    have hsize : (#[42] : Text).size = 1 := rfl
    rw [searchFuel, hsize]
    generalize Nat.pow (path.toArray.size + 2) (2 * maxOpen + 2) = power at hpower ⊢
    omega
  have hstart : accepts [42] path =
      Search.run #[42] path.toArray false (searchFuel #[42] path.toArray) (Search.atStar 0 {}) :=
    rfl
  rw [hstart, Search.run_atStar (Nat.zero_add path.toArray.size) hfuel, List.drop_zero]

/-- It does what the library documents for a single star. -/
theorem searching_starStopsAtSlash : searching.StarStopsAtSlash := by
  intro text
  have hpattern : Bytes.ofString "*" = [42] := by decide
  have haccepts : searching.accepts "*" text = decide (47 ∉ Bytes.ofString text) := by
    rw [← accepts_star, ← hpattern]
    rfl
  rw [haccepts, decide_eq_true_iff, Bytes.slash_mem_ofString_iff]

end Glob
end RespStore
