import RespStore.Proofs.Table
import RespStore.SortedSet

/-! The two views of a sorted set, its scores by member and its listing, stay in step. -/
namespace RespStore

namespace Binary64

variable {x y : Binary64}

theorem eq_of_totalPlace_eq (h : x.totalPlace = y.totalPlace) : x = y := by
  obtain ⟨n, m, hm⟩ := x
  obtain ⟨n', m', hm'⟩ := y
  cases n <;> cases n' <;> simp only [totalPlace, if_true, Bool.false_eq_true, if_false] at h
  · congr
    omega
  · omega
  · omega
  · congr
    omega

theorem ne_negativeZero_iff :
    x ≠ signedZero true ↔ (x.negative = true → 0 < x.magnitude) := by
  obtain ⟨n, m, hm⟩ := x
  rw [signedZero, Ne, mk.injEq]
  cases n
  · simp
  · simp only [true_and, true_imp_iff]
    omega

theorem totalPlace_lt_iff (hx : x ≠ signedZero true) (hy : y ≠ signedZero true) :
    x.totalPlace < y.totalPlace ↔ x < y := by
  rw [ne_negativeZero_iff] at hx hy
  show _ ↔ x.place < y.place
  unfold totalPlace place
  split <;> split <;> simp_all <;> omega

theorem place_eq_iff (hx : x ≠ signedZero true) (hy : y ≠ signedZero true) :
    x.place = y.place ↔ x = y := by
  refine ⟨fun h => eq_of_totalPlace_eq ?_, fun h => h ▸ rfl⟩
  have hle : ¬ x.totalPlace < y.totalPlace := fun hlt =>
    absurd h (Int.ne_of_lt ((totalPlace_lt_iff hx hy).1 hlt))
  have hge : ¬ y.totalPlace < x.totalPlace := fun hlt =>
    absurd h.symm (Int.ne_of_lt ((totalPlace_lt_iff hy hx).1 hlt))
  omega

theorem normalZero_of_ne (hx : x ≠ signedZero true) : x.normalZero = x := by
  unfold normalZero
  split
  · next hzero =>
    obtain ⟨n, m, hm⟩ := x
    obtain rfl : m = 0 := hzero
    cases n with
    | false => rfl
    | true => exact absurd rfl hx
  · rfl

theorem normalZero_signedZero (negative : Bool) : (signedZero negative).normalZero = zero := rfl

theorem normalZero_eq (x : Binary64) : x.normalZero = if x = signedZero true then zero else x := by
  split
  · next hx => rw [hx, normalZero_signedZero]
  · next hx => exact normalZero_of_ne hx

theorem normalZero_ne (x : Binary64) : x.normalZero ≠ signedZero true := by
  by_cases hx : x ≠ signedZero true
  · rwa [normalZero_of_ne hx]
  · rw [not_not.1 hx, normalZero_signedZero]
    exact fun h => absurd (congrArg negative h) (by decide)

theorem place_normalZero (x : Binary64) : x.normalZero.place = x.place := by
  by_cases hx : x ≠ signedZero true
  · rw [normalZero_of_ne hx]
  · rw [not_not.1 hx]
    rfl

end Binary64

namespace SortedSet

variable {z : SortedSet} {pair p q r : Binary64 × Bytes} {l : List (Binary64 × Bytes)}
  {m k : Bytes} {s t : Binary64}

theorem Precedes.trans (hpq : Precedes p q) (hqr : Precedes q r) : Precedes p r := by
  rcases hpq with hpq | ⟨hpq, hpq'⟩ <;> rcases hqr with hqr | ⟨hqr, hqr'⟩
  · exact .inl (by omega)
  · exact .inl (by omega)
  · exact .inl (by omega)
  · exact .inr ⟨hpq.trans hqr, Table.lt_trans hpq' hqr'⟩

theorem Precedes.ne (h : Precedes p q) : p ≠ q := by
  rintro rfl
  rcases h with h | ⟨-, h⟩
  · omega
  · exact Table.lt_irrefl _ h

theorem eq_of_not_precedes (hpq : ¬ Precedes p q) (hqp : ¬ Precedes q p) : p = q := by
  unfold Precedes at hpq hqp
  rw [not_or, not_and] at hpq hqp
  have hplace : p.1.totalPlace = q.1.totalPlace := by omega
  have hscore := Binary64.eq_of_totalPlace_eq hplace
  have hmember : p.2 = q.2 := Decidable.byContradiction fun hne =>
    hqp.2 hplace.symm (Table.lt_of_not_lt (hpq.2 hplace) hne)
  exact Prod.ext hscore hmember

theorem mem_insertOrdered : p ∈ insertOrdered pair l ↔ p = pair ∨ p ∈ l := by
  induction l with
  | nil => exact List.mem_cons
  | cons q rest ih =>
    unfold insertOrdered
    split
    · exact List.mem_cons
    · next hbefore =>
      split
      · rw [List.mem_cons, List.mem_cons, ih]
        exact or_left_comm
      · next hafter =>
        rw [eq_of_not_precedes hbefore hafter, List.mem_cons, ← or_assoc, or_self]

theorem ascending_insertOrdered (h : l.Pairwise Precedes) :
    (insertOrdered pair l).Pairwise Precedes := by
  induction l with
  | nil => exact List.pairwise_singleton _ _
  | cons q rest ih =>
    obtain ⟨hq, hrest⟩ := List.pairwise_cons.1 h
    unfold insertOrdered
    split
    · next hbefore =>
      refine List.pairwise_cons.2 ⟨fun p hp => ?_, h⟩
      rcases List.mem_cons.1 hp with rfl | hp
      · exact hbefore
      · exact hbefore.trans (hq p hp)
    · split
      · next hafter =>
        refine List.pairwise_cons.2 ⟨fun p hp => ?_, ih hrest⟩
        rcases mem_insertOrdered.1 hp with rfl | hp
        · exact hafter
        · exact hq p hp
      · exact h

/-- The listing holds the scores that the members have, none of them twice, in ascending order. -/
structure WellFormed (z : SortedSet) : Prop where
  mem_ordered_iff : ∀ {s m}, (s, m) ∈ z.ordered ↔ z.score? m = some s
  ascending : z.ordered.Pairwise Precedes
  ne_negativeZero : ∀ {s m}, z.score? m = some s → s ≠ .signedZero true

theorem wellFormed_empty : empty.WellFormed where
  mem_ordered_iff := ⟨nofun, nofun⟩
  ascending := .nil
  ne_negativeZero := nofun

section Insertion
variable {old : Binary64}

theorem insert_of_absent (h : z.score? m = none) : z.insert m s =
    (.added, ⟨z.scores.insert m s.normalZero, insertOrdered (s.normalZero, m) z.ordered⟩) := by
  rw [score?] at h
  rw [insert, h]

theorem insert_of_same (h : z.score? m = some old) (hplace : old.place = s.place) :
    z.insert m s = (.unchanged, ⟨z.scores.insert m s.normalZero, z.ordered⟩) := by
  rw [score?] at h
  rw [insert, h]
  exact if_pos (hplace.trans s.place_normalZero.symm)

theorem insert_of_other (h : z.score? m = some old) (hplace : old.place ≠ s.place) :
    z.insert m s = (.updated, ⟨z.scores.insert m s.normalZero,
      insertOrdered (s.normalZero, m) (z.ordered.filter (· ≠ (old, m)))⟩) := by
  rw [score?] at h
  rw [insert, h]
  exact if_neg fun heq => hplace (heq.trans s.place_normalZero)

theorem insert_fst (z : SortedSet) (m : Bytes) (s : Binary64) :
    (z.insert m s).1 = (z.score? m).elim .added fun old =>
      if old.place = s.place then .unchanged else .updated := by
  cases h : z.score? m with
  | none => rw [insert_of_absent h, Option.elim_none]
  | some old =>
    rw [Option.elim_some]
    by_cases hplace : old.place = s.place
    · rw [insert_of_same h hplace, if_pos hplace]
    · rw [insert_of_other h hplace, if_neg hplace]

theorem scores_insert (z : SortedSet) (m : Bytes) (s : Binary64) :
    (z.insert m s).2.scores = z.scores.insert m s.normalZero := by
  cases h : z.score? m with
  | none => rw [insert_of_absent h]
  | some old =>
    by_cases hplace : old.place = s.place
    · rw [insert_of_same h hplace]
    · rw [insert_of_other h hplace]

theorem score?_insert (z : SortedSet) (m k : Bytes) (s : Binary64) :
    (z.insert m s).2.score? k = if k = m then some s.normalZero else z.score? k := by
  rw [score?, scores_insert, Table.get?_insert, score?]

end Insertion

section Removal

theorem remove_of_absent (h : z.score? m = none) : z.remove m = (false, z) := by
  rw [score?] at h
  rw [remove, h]

theorem remove_of_present (h : z.score? m = some s) :
    z.remove m = (true, ⟨z.scores.erase m, z.ordered.filter (· ≠ (s, m))⟩) := by
  rw [score?] at h
  rw [remove, h]

theorem remove_fst (z : SortedSet) (m : Bytes) : (z.remove m).1 = (z.score? m).isSome := by
  cases h : z.score? m with
  | none => rw [remove_of_absent h, Option.isSome_none]
  | some s => rw [remove_of_present h, Option.isSome_some]

theorem score?_remove (z : SortedSet) (m k : Bytes) :
    (z.remove m).2.score? k = if k = m then none else z.score? k := by
  cases h : z.score? m with
  | none =>
    rw [remove_of_absent h]
    by_cases hk : k = m
    · rw [if_pos hk, hk, h]
    · rw [if_neg hk]
  | some s =>
    rw [remove_of_present h, score?, Table.get?_erase, score?]

end Removal

namespace WellFormed

theorem mem_without (h : z.WellFormed) (hm : z.score? m = some s) :
    (t, k) ∈ z.ordered.filter (· ≠ (s, m)) ↔ z.score? k = some t ∧ k ≠ m := by
  rw [List.mem_filter, h.mem_ordered_iff]
  refine and_congr_right fun hk => ?_
  rw [decide_eq_true_eq, Ne, Prod.mk.injEq]
  refine not_congr ⟨fun heq => heq.2, fun heq => ⟨?_, heq⟩⟩
  rw [heq, hm] at hk
  exact (Option.some.inj hk).symm

theorem bound (h : z.WellFormed) {others : List (Binary64 × Bytes)}
    (hothers : ∀ {t k}, (t, k) ∈ others ↔ z.score? k = some t ∧ k ≠ m)
    (hascending : others.Pairwise Precedes) (hs : s ≠ .signedZero true) :
    WellFormed ⟨z.scores.insert m s, insertOrdered (s, m) others⟩ where
  mem_ordered_iff {t k} := by
    have hscore : (z.scores.insert m s).get? k = if k = m then some s else z.score? k :=
      Table.get?_insert z.scores m k s
    rw [mem_insertOrdered, hothers, Prod.mk.injEq]
    show _ ↔ (z.scores.insert m s).get? k = some t
    rw [hscore]
    by_cases hk : k = m
    · simp [hk, eq_comm]
    · simp [hk]
  ascending := ascending_insertOrdered hascending
  ne_negativeZero {t k} hk := by
    rw [score?, Table.get?_insert] at hk
    split at hk
    · cases hk
      exact hs
    · exact h.ne_negativeZero hk

/-- By the three cases of an insertion. -/
theorem insert (h : z.WellFormed) (m : Bytes) (s : Binary64) : (z.insert m s).2.WellFormed := by
  have hs := s.normalZero_ne
  cases hm : z.score? m with
  | none =>
    rw [insert_of_absent hm]
    refine h.bound (fun {t k} => ?_) h.ascending hs
    rw [h.mem_ordered_iff, iff_self_and]
    rintro hk rfl
    rw [hm] at hk
    cases hk
  | some old =>
    by_cases hplace : old.place = s.place
    · -- The listing need not change, for the old score is the new one.
      have hold : old = s.normalZero :=
        (Binary64.place_eq_iff (h.ne_negativeZero hm) hs).1 (hplace.trans s.place_normalZero.symm)
      have hsame : ∀ k, (z.insert m s).2.score? k = z.score? k := by
        intro k
        rw [score?_insert]
        split
        · next hk => rw [hk, hm, hold]
        · rfl
      rw [insert_of_same hm hplace] at hsame ⊢
      exact
        { mem_ordered_iff := fun {t k} => by rw [hsame]; exact h.mem_ordered_iff
          ascending := h.ascending
          ne_negativeZero := fun {t k} hk => h.ne_negativeZero (hsame k ▸ hk) }
    · rw [insert_of_other hm hplace]
      exact h.bound (h.mem_without hm) (h.ascending.filter _) hs

theorem remove (h : z.WellFormed) (m : Bytes) : (z.remove m).2.WellFormed := by
  cases hm : z.score? m with
  | none =>
    rw [remove_of_absent hm]
    exact h
  | some s =>
    have hscore : ∀ k, (z.remove m).2.score? k = if k = m then none else z.score? k :=
      score?_remove z m
    rw [remove_of_present hm] at hscore ⊢
    exact
      { mem_ordered_iff := fun {t k} => by
          rw [h.mem_without hm, hscore]
          by_cases hk : k = m <;> simp [hk]
        ascending := h.ascending.filter _
        ne_negativeZero := fun {t k} hk => by
          rw [hscore] at hk
          split at hk
          · cases hk
          · exact h.ne_negativeZero hk }

theorem removeAll (h : z.WellFormed) (members : List Bytes) : (z.removeAll members).WellFormed := by
  unfold SortedSet.removeAll
  induction members generalizing z with
  | nil => exact h
  | cons m rest ih => exact ih (h.remove m)

theorem mem_toList_iff (h : z.WellFormed) : (m, s) ∈ z.toList ↔ z.score? m = some s := by
  rw [← h.mem_ordered_iff, toList, List.mem_map]
  constructor
  · rintro ⟨pair, hpair, heq⟩
    cases heq
    exact hpair
  · intro hpair
    exact ⟨(s, m), hpair, rfl⟩

theorem toList_perm (h : z.WellFormed) : z.toList.Perm z.scores.toList := by
  have hlisted : z.toList.Nodup := by
    refine List.pairwise_map.2 (h.ascending.imp fun hpq heq => hpq.ne ?_)
    exact Prod.ext (Prod.mk.inj heq).2 (Prod.mk.inj heq).1
  have hbound : z.scores.toList.Nodup := by
    refine z.scores.ascending.imp ?_
    rintro b _ hlt rfl
    exact Table.lt_irrefl b.1 hlt
  refine (List.perm_ext_iff_of_nodup hlisted hbound).2 fun (m, s) => ?_
  rw [h.mem_toList_iff, Table.mem_toList_iff, score?]

theorem nodup_members (h : z.WellFormed) : (z.toList.map (·.1)).Nodup := by
  have hkeys : (z.scores.toList.map (·.1)).Nodup :=
    List.Pairwise.map _ (fun _ _ hlt heq => Table.lt_irrefl _ (heq ▸ hlt)) z.scores.ascending
  exact (h.toList_perm.map (·.1)).nodup_iff.2 hkeys

theorem size_eq (h : z.WellFormed) : z.size = z.toList.length := h.toList_perm.length_eq.symm

end WellFormed

/-- The order of what is listed: by the numbers, and for the same number by the bytes. -/
def ListedBefore (a b : Bytes × Binary64) : Prop := a.2 < b.2 ∨ (a.2.place = b.2.place ∧ a.1 < b.1)

theorem WellFormed.toList_ascending (h : z.WellFormed) : z.toList.Pairwise ListedBefore := by
  refine List.pairwise_map.2 (h.ascending.imp_of_mem fun {p q} hp hq hpq => ?_)
  have hpn := h.ne_negativeZero (h.mem_ordered_iff.1 hp)
  have hqn := h.ne_negativeZero (h.mem_ordered_iff.1 hq)
  rcases hpq with hlt | ⟨heq, hlt⟩
  · exact .inl ((Binary64.totalPlace_lt_iff hpn hqn).1 hlt)
  · exact .inr ⟨congrArg Binary64.place (Binary64.eq_of_totalPlace_eq heq), hlt⟩

inductive Edit where
  | insert (member : Bytes) (score : Binary64)
  | remove (member : Bytes)
  | removeRangeByRank (start stop : Int)
  | removeRangeByScore (min max : ScoreBound)

def edit (z : SortedSet) : Edit → SortedSet
  | .insert member score => (z.insert member score).2
  | .remove member => (z.remove member).2
  | .removeRangeByRank start stop => (z.removeRangeByRank start stop).2
  | .removeRangeByScore min max => (z.removeRangeByScore min max).2

theorem WellFormed.edit (h : z.WellFormed) (e : Edit) : (z.edit e).WellFormed := by
  cases e with
  | insert member score => exact h.insert member score
  | remove member => exact h.remove member
  | removeRangeByRank start stop => exact h.removeAll _
  | removeRangeByScore min max => exact h.removeAll _

theorem wellFormed_foldl_edit (edits : List Edit) (h : z.WellFormed) :
    (edits.foldl edit z).WellFormed := by
  induction edits generalizing z with
  | nil => exact h
  | cons e rest ih => exact ih (h.edit e)

theorem insert_fst_iff (z : SortedSet) (m : Bytes) (s : Binary64) :
    ((z.insert m s).1 = .added ↔ z.score? m = none) ∧
      ((z.insert m s).1 = .updated ↔ ∃ old, z.score? m = some old ∧ (old < s ∨ s < old)) ∧
      ((z.insert m s).1 = .unchanged ↔ ∃ old, z.score? m = some old ∧ old ≤ s ∧ s ≤ old) := by
  rw [insert_fst]
  cases hm : z.score? m with
  | none => simp
  | some old =>
    have hne : (old < s ∨ s < old) ↔ old.place ≠ s.place := by
      change old.place < s.place ∨ s.place < old.place ↔ _
      omega
    have heq : (old ≤ s ∧ s ≤ old) ↔ old.place = s.place := Int.le_antisymm_iff.symm
    simp only [Option.elim_some, Option.some.injEq, exists_eq_left', reduceCtorEq, hne, heq]
    by_cases hplace : old.place = s.place <;> simp [hplace]

/-- After any edits the listing holds just the pairs of members and their scores, each member once,
in strictly ascending order, and no score is negative zero; an insertion or a removal that comes
next answers as it should, and it changes the score of its own member alone. -/
theorem views_in_step (edits : List Edit) :
    let z := edits.foldl edit empty
    (∀ s m, (s, m) ∈ z.ordered ↔ z.score? m = some s) ∧
    (∀ m, z.score? m ≠ some (.signedZero true)) ∧
    (∀ m s, (m, s) ∈ z.toList ↔ z.score? m = some s) ∧
    (z.toList.map (·.1)).Nodup ∧ z.toList.Pairwise ListedBefore ∧ z.size = z.toList.length ∧
    (∀ m s,
      (((z.insert m s).1 = .added ↔ z.score? m = none) ∧
        ((z.insert m s).1 = .updated ↔ ∃ old, z.score? m = some old ∧ (old < s ∨ s < old)) ∧
        ((z.insert m s).1 = .unchanged ↔ ∃ old, z.score? m = some old ∧ old ≤ s ∧ s ≤ old)) ∧
      (z.insert m s).2.score? m = some (if s = .signedZero true then .zero else s) ∧
      ∀ k ≠ m, (z.insert m s).2.score? k = z.score? k) ∧
    ∀ m, (z.remove m).1 = (z.score? m).isSome ∧ (z.remove m).2.score? m = none ∧
      ∀ k ≠ m, (z.remove m).2.score? k = z.score? k := by
  intro z
  have h : z.WellFormed := wellFormed_foldl_edit edits wellFormed_empty
  refine ⟨fun s m => h.mem_ordered_iff, fun m hm => h.ne_negativeZero hm rfl,
    fun m s => h.mem_toList_iff, h.nodup_members, h.toList_ascending, h.size_eq, ?_, ?_⟩
  · intro m s
    refine ⟨insert_fst_iff z m s, ?_, fun k hk => ?_⟩
    · rw [score?_insert, if_pos rfl, Binary64.normalZero_eq]
    · rw [score?_insert, if_neg hk]
  · intro m
    refine ⟨remove_fst z m, ?_, fun k hk => ?_⟩
    · rw [score?_remove, if_pos rfl]
    · rw [score?_remove, if_neg hk]

end SortedSet
end RespStore
