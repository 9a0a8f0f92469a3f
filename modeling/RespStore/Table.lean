import RespStore.Bytes

/-! Finite maps from byte strings, listed in the order of their keys. -/
namespace RespStore

/-- The bindings of a table, strictly ascending by key, so that equal tables are equal lists. -/
structure Table (β : Type) where
  toList : List (Bytes × β)
  ascending : toList.Pairwise (·.1 < ·.1)
  deriving DecidableEq, Repr

namespace Table

variable {β : Type}

theorem lt_trans {a b c : Bytes} (hab : a < b) (hbc : b < c) : a < c := List.lt_trans hab hbc

theorem lt_irrefl (a : Bytes) : ¬ a < a := List.lt_irrefl a

theorem lt_of_not_lt {a b : Bytes} (h : ¬ a < b) (hne : a ≠ b) : b < a :=
  Decidable.byContradiction fun h' => hne (List.le_antisymm h' h)

def insertInto (key : Bytes) (value : β) : List (Bytes × β) → List (Bytes × β)
  | [] => [(key, value)]
  | (k, v) :: rest =>
    if key < k then (key, value) :: (k, v) :: rest
    else if key = k then (key, value) :: rest
    else (k, v) :: insertInto key value rest

theorem mem_insertInto {key : Bytes} {value : β} {b : Bytes × β} {l : List (Bytes × β)}
    (h : b ∈ insertInto key value l) : b = (key, value) ∨ b ∈ l := by
  induction l with
  | nil => exact .inl (List.mem_singleton.1 h)
  | cons head rest ih =>
    unfold insertInto at h
    split at h
    · exact (List.mem_cons.1 h)
    · split at h
      · exact (List.mem_cons.1 h).imp_right (List.mem_cons_of_mem _)
      · rcases List.mem_cons.1 h with rfl | h
        · exact .inr List.mem_cons_self
        · exact (ih h).imp_right (List.mem_cons_of_mem _)

theorem ascending_insertInto {key : Bytes} {value : β} {l : List (Bytes × β)}
    (h : l.Pairwise (·.1 < ·.1)) : (insertInto key value l).Pairwise (·.1 < ·.1) := by
  induction l with
  | nil => exact List.pairwise_singleton _ _
  | cons head rest ih =>
    obtain ⟨hhead, hrest⟩ := List.pairwise_cons.1 h
    unfold insertInto
    split
    · next hlt =>
      refine List.pairwise_cons.2 ⟨fun b hb => ?_, h⟩
      rcases List.mem_cons.1 hb with rfl | hb
      · exact hlt
      · exact lt_trans hlt (hhead b hb)
    · next hge =>
      split
      · next heq => exact List.pairwise_cons.2 ⟨fun b hb => heq ▸ hhead b hb, hrest⟩
      · next hne =>
        refine List.pairwise_cons.2 ⟨fun b hb => ?_, ih hrest⟩
        rcases mem_insertInto hb with rfl | hb
        · exact lt_of_not_lt hge hne
        · exact hhead b hb

def findIn (key : Bytes) : List (Bytes × β) → Option β
  | [] => none
  | (k, v) :: rest => if key = k then some v else findIn key rest

theorem findIn_insertInto (key k : Bytes) (value : β) (l : List (Bytes × β)) :
    findIn k (insertInto key value l) = if k = key then some value else findIn k l := by
  induction l with
  | nil => rfl
  | cons head rest ih =>
    obtain ⟨k', v'⟩ := head
    by_cases hlt : key < k'
    · simp [insertInto, hlt, findIn]
    · by_cases heq : key = k'
      · subst heq
        by_cases hk : k = key <;> simp [insertInto, hlt, findIn, hk]
      · by_cases hk : k = k'
        · subst hk
          simp [insertInto, hlt, heq, findIn, Ne.symm heq]
        · simp [insertInto, hlt, heq, findIn, hk, ih]

theorem findIn_filter (key k : Bytes) (l : List (Bytes × β)) :
    findIn k (l.filter (·.1 ≠ key)) = if k = key then none else findIn k l := by
  induction l with
  | nil => simp [findIn]
  | cons head rest ih =>
    obtain ⟨k', v'⟩ := head
    by_cases hkey : k' = key
    · subst hkey
      by_cases hk : k = k' <;> simp_all [findIn]
    · by_cases hk : k = k'
      · subst hk
        simp [findIn, hkey]
      · simp_all [findIn]

theorem mem_of_findIn {key : Bytes} {value : β} {l : List (Bytes × β)}
    (h : findIn key l = some value) : (key, value) ∈ l := by
  induction l with
  | nil => cases h
  | cons head rest ih =>
    unfold findIn at h
    split at h
    · next heq =>
      cases h
      rw [heq]
      exact List.mem_cons_self
    · exact List.mem_cons_of_mem _ (ih h)

theorem findIn_of_mem {key : Bytes} {value : β} {l : List (Bytes × β)}
    (hl : l.Pairwise (·.1 < ·.1)) (h : (key, value) ∈ l) : findIn key l = some value := by
  induction l with
  | nil => cases h
  | cons head rest ih =>
    obtain ⟨hhead, hrest⟩ := List.pairwise_cons.1 hl
    rcases List.mem_cons.1 h with rfl | h
    · simp [findIn]
    · have hne : key ≠ head.1 := fun heq => lt_irrefl _ (heq ▸ hhead _ h)
      simp [findIn, hne, ih hrest h]

def empty : Table β := ⟨[], .nil⟩

instance : Inhabited (Table β) := ⟨empty⟩

def isEmpty (t : Table β) : Bool := t.toList.isEmpty

def size (t : Table β) : Nat := t.toList.length

def keys (t : Table β) : List Bytes := t.toList.map (·.1)

def get? (t : Table β) (key : Bytes) : Option β := findIn key t.toList

def contains (t : Table β) (key : Bytes) : Bool := (t.get? key).isSome

def insert (t : Table β) (key : Bytes) (value : β) : Table β :=
  ⟨insertInto key value t.toList, ascending_insertInto t.ascending⟩

def filter (t : Table β) (keep : Bytes × β → Bool) : Table β :=
  ⟨t.toList.filter keep, t.ascending.filter _⟩

def erase (t : Table β) (key : Bytes) : Table β := t.filter (·.1 ≠ key)

/-- Binds a key or frees it. -/
def set (t : Table β) (key : Bytes) : Option β → Table β
  | none => t.erase key
  | some value => t.insert key value

theorem mem_toList_iff {t : Table β} {key : Bytes} {value : β} :
    (key, value) ∈ t.toList ↔ t.get? key = some value :=
  ⟨findIn_of_mem t.ascending, mem_of_findIn⟩

@[simp] theorem get?_empty (key : Bytes) : (empty : Table β).get? key = none := rfl

theorem get?_insert (t : Table β) (key k : Bytes) (value : β) :
    (t.insert key value).get? k = if k = key then some value else t.get? k :=
  findIn_insertInto key k value t.toList

theorem get?_erase (t : Table β) (key k : Bytes) :
    (t.erase key).get? k = if k = key then none else t.get? k :=
  findIn_filter key k t.toList

theorem get?_set (t : Table β) (key k : Bytes) (binding : Option β) :
    (t.set key binding).get? k = if k = key then binding else t.get? k := by
  cases binding with
  | none => exact get?_erase t key k
  | some value => exact get?_insert t key k value

end Table

abbrev ByteSet := Table Unit

namespace ByteSet

def members (s : ByteSet) : List Bytes := s.keys

end ByteSet
end RespStore
