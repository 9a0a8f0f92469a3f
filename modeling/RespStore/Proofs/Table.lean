import Mathlib.Data.List.Sort
import RespStore.Table

/-! Tables as partial functions: equal lookups make equal tables, and filtering goes through. -/
namespace RespStore.Table

variable {β : Type}

theorem ext_get? {s t : Table β} (h : ∀ key, s.get? key = t.get? key) : s = t := by
  have hmem : ∀ b, b ∈ s.toList ↔ b ∈ t.toList := by
    intro ⟨key, value⟩
    rw [mem_toList_iff, mem_toList_iff, h]
  have : Std.Irrefl fun a b : Bytes × β => a.1 < b.1 := ⟨fun a => lt_irrefl a.1⟩
  have : Std.Antisymm fun a b : Bytes × β => a.1 < b.1 :=
    ⟨fun a _ hab hba => absurd (lt_trans hab hba) (lt_irrefl a.1)⟩
  obtain ⟨xs, hx⟩ := s
  obtain ⟨ys, hy⟩ := t
  congr
  exact hx.eq_of_mem_iff hy fun {a} => hmem a

theorem get?_filter (t : Table β) (keep : Bytes × β → Bool) (key : Bytes) :
    (t.filter keep).get? key = (t.get? key).filter fun value => keep (key, value) := by
  have hmem : ∀ value, (t.filter keep).get? key = some value ↔
      t.get? key = some value ∧ keep (key, value) = true := by
    intro value
    rw [← mem_toList_iff, ← mem_toList_iff]
    exact List.mem_filter
  apply Option.ext
  intro value
  rw [hmem, Option.filter_eq_some_iff]

/-- A binding that passes a filter can be made before or after it. -/
theorem filter_set (t : Table β) (keep : Bytes × β → Bool) (key : Bytes) (binding : Option β)
    (hb : ∀ value ∈ binding, keep (key, value) = true) :
    (t.set key binding).filter keep = (t.filter keep).set key binding := by
  apply ext_get?
  intro k
  rw [get?_filter, get?_set, get?_set, get?_filter]
  by_cases hk : k = key
  · subst hk
    cases binding with
    | none => simp
    | some value => simp [hb value rfl]
  · simp [hk]

theorem set_erase (t : Table β) (key : Bytes) (binding : Option β) :
    (t.erase key).set key binding = t.set key binding := by
  apply ext_get?
  intro k
  rw [get?_set, get?_set, get?_erase]
  split <;> rfl

theorem set_set (t : Table β) (key : Bytes) (binding later : Option β) :
    (t.set key binding).set key later = t.set key later := by
  apply ext_get?
  intro k
  rw [get?_set, get?_set, get?_set]
  split <;> rfl

theorem set_of_get?_eq {t : Table β} {key : Bytes} {binding : Option β}
    (h : t.get? key = binding) : t.set key binding = t := by
  apply ext_get?
  intro k
  rw [get?_set]
  split
  · next hk => rw [hk, h]
  · rfl

theorem filter_filter_of_imp (t : Table β) {loose strict : Bytes × β → Bool}
    (h : ∀ b, strict b = true → loose b = true) :
    (t.filter loose).filter strict = t.filter strict := by
  obtain ⟨xs, hx⟩ := t
  simp only [filter, mk.injEq, List.filter_filter]
  refine List.filter_congr fun b _ => ?_
  cases hb : strict b with
  | false => rfl
  | true => rw [h b hb]; rfl

end RespStore.Table
