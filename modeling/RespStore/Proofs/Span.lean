import RespStore.Span

/-! Index ranges as sets of positions, counted from either end. -/
namespace RespStore.Span

/-- A position is not before the one that `start` names, nor after the one that `stop` names. -/
def Selects (start stop : Int) (length i : Nat) : Prop :=
  resolve start length ≤ i ∧ i ≤ resolve stop length

instance (start stop : Int) (length i : Nat) : Decidable (Selects start stop length i) :=
  inferInstanceAs (Decidable (_ ∧ _))

section Positions

variable {start stop : Int} {length : Nat} {span : Span}

theorem clamp?_eq_none_iff :
    clamp? start stop length = none ↔ ∀ i < length, ¬ Selects start stop length i := by
  unfold clamp? Selects
  generalize resolve start length = s
  generalize resolve stop length = e
  dsimp only
  split
  · simp only [true_iff]
    intro i hi
    omega
  · next hsome =>
    -- The first position of the span is selected.
    simp only [reduceCtorEq, false_iff]
    intro hnone
    exact hnone (max s 0).toNat (by omega) ⟨by omega, by omega⟩

/-- A span that is found is not empty, lies within the sequence, and holds what is selected. -/
theorem selects_of_clamp? (h : clamp? start stop length = some span) :
    span.start < span.stop ∧ span.stop ≤ length ∧
      ∀ i < length, Selects start stop length i ↔ span.start ≤ i ∧ i < span.stop := by
  unfold clamp? at h
  unfold Selects
  generalize resolve start length = s at h ⊢
  generalize resolve stop length = e at h ⊢
  dsimp only at h
  split at h
  · cases h
  · cases h
    refine ⟨by dsimp only; omega, by dsimp only; omega, ?_⟩
    intro i hi
    dsimp only
    omega

theorem bounds_of_clampBytes? (h : clampBytes? start stop length = some span) :
    span.start < span.stop ∧ span.stop ≤ length := by
  unfold clampBytes? at h
  generalize resolve start length = s at h
  generalize resolve stop length = e at h
  dsimp only at h
  split at h
  · cases h
  · split at h
    · cases h
    · cases h
      constructor <;> dsimp only <;> omega

end Positions

section Lists

variable {α : Type} (xs : List α)

def selected (start stop : Int) : List α :=
  (xs.zipIdx.filter fun x => Selects start stop xs.length x.2).map (·.1)

/-- By induction on the list, whose first element is at position `k`. -/
theorem take_drop_eq_filter_zipIdx (a b k : Nat) :
    (xs.drop (a - k)).take (b - max a k) =
      ((xs.zipIdx k).filter fun x => a ≤ x.2 ∧ x.2 < b).map (·.1) := by
  induction xs generalizing k with
  | nil => simp
  | cons x rest ih =>
    rw [List.zipIdx_cons, List.filter_cons]
    by_cases hk : k < a
    · have hskip : a - k = a - (k + 1) + 1 := by omega
      have hmax : max a k = max a (k + 1) := by omega
      have hout : ¬ (a ≤ k ∧ k < b) := by omega
      simp only [hout, decide_false, Bool.false_eq_true, if_false, hskip, List.drop_succ_cons, hmax]
      exact ih (k + 1)
    · have hnone : a - k = 0 := by omega
      have hnone' : a - (k + 1) = 0 := by omega
      have hrest := ih (k + 1)
      rw [hnone', List.drop_zero] at hrest
      rw [hnone, List.drop_zero]
      by_cases hb : k < b
      · have hin : a ≤ k ∧ k < b := by omega
        have htake : b - max a k = b - max a (k + 1) + 1 := by omega
        simp only [hin, and_self, decide_true, if_true, htake, List.take_succ_cons, List.map_cons,
          hrest]
      · have hout : ¬ (a ≤ k ∧ k < b) := by omega
        have htake : b - max a k = 0 := by omega
        have htake' : b - max a (k + 1) = 0 := by omega
        simp only [hout, decide_false, Bool.false_eq_true, if_false, htake, List.take_zero,
          ← hrest, htake']

theorem slice_eq_filter_zipIdx (s : Span) :
    s.slice xs = (xs.zipIdx.filter fun x => s.start ≤ x.2 ∧ x.2 < s.stop).map (·.1) := by
  have hlist := take_drop_eq_filter_zipIdx xs s.start s.stop 0
  rwa [Nat.sub_zero, Nat.max_zero] at hlist

/-- What a range is resolved to are the selected elements. -/
theorem slice_clamp? (start stop : Int) :
    (clamp? start stop xs.length).elim [] (·.slice xs) = selected xs start stop := by
  unfold selected
  cases h : clamp? start stop xs.length with
  | none =>
    have hnone := clamp?_eq_none_iff.1 h
    symm
    rw [Option.elim_none, List.map_eq_nil_iff, List.filter_eq_nil_iff]
    intro x hx
    have hlt : x.2 < xs.length := List.snd_lt_of_mem_zipIdx hx
    simpa using hnone x.2 hlt
  | some span =>
    obtain ⟨-, -, hselects⟩ := selects_of_clamp? h
    rw [Option.elim_some, slice_eq_filter_zipIdx]
    congr 1
    apply List.filter_congr
    intro x hx
    have hlt : x.2 < xs.length := List.snd_lt_of_mem_zipIdx hx
    simp [hselects x.2 hlt]

theorem selected_whole : selected xs 0 (-1) = xs := by
  have hall : ∀ x ∈ xs.zipIdx, decide (Selects 0 (-1) xs.length x.2) = true := by
    intro x hx
    have hlt : x.2 < xs.length := List.snd_lt_of_mem_zipIdx hx
    have hlast : resolve (-1) xs.length = xs.length + -1 := rfl
    rw [decide_eq_true_eq, Selects, hlast]
    constructor
    · exact Int.natCast_nonneg x.2
    · omega
  rw [selected, List.filter_eq_self.2 hall, List.zipIdx_map_fst]

/-- The same positions, counted from the other end. -/
def mirror (length : Nat) (s : Span) : Span := ⟨length - s.stop, length - s.start⟩

theorem clamp?_mirror (start stop : Int) (length : Nat) :
    clamp? (-1 - stop) (-1 - start) length = (clamp? start stop length).map (mirror length) := by
  have hresolve (i : Int) : resolve (-1 - i) length = length - 1 - resolve i length := by
    unfold resolve
    split <;> split <;> omega
  unfold clamp?
  rw [hresolve, hresolve]
  generalize resolve start length = s
  generalize resolve stop length = e
  dsimp only
  split
  · rw [if_pos (by omega), Option.map_none]
  · rw [if_neg (by omega), Option.map_some, mirror, Option.some.injEq, mk.injEq]
    constructor
    · dsimp only
      omega
    · dsimp only
      omega

theorem slice_reverse {s : Span} (hle : s.start ≤ s.stop) (hstop : s.stop ≤ xs.length) :
    s.slice xs.reverse = ((s.mirror xs.length).slice xs).reverse := by
  unfold slice mirror length
  dsimp only
  rw [List.drop_reverse, List.take_reverse, List.length_take, List.drop_take]
  congr 2
  · omega
  · congr 1
    omega

end Lists
end RespStore.Span
