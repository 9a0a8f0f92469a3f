import RespStore.Proofs.Collections

/-! What an access finds and leaves under a key that holds a given collection. An empty one is held
where nothing is. -/
namespace RespStore

namespace Slot

variable {α : Type} [Collection α] {deadline : Option Nat} {c : α}

theorem collection?_toValue (c : α) (deadline : Option Nat) :
    collection? α (some ⟨Collection.toValue c, deadline⟩) = .ok (some c) := by
  unfold collection?
  dsimp only
  rw [Collection.ofValue?_eq_some_iff.2 rfl]

theorem ofCollection_of_isEmpty (h : Collection.isEmpty c = true) :
    ofCollection deadline c = none := if_pos h

theorem ofCollection_of_not_isEmpty (h : Collection.isEmpty c = false) :
    ofCollection deadline c = some ⟨Collection.toValue c, deadline⟩ := by
  unfold ofCollection
  rw [h]
  rfl

theorem ofCollection_eq_none_iff :
    ofCollection deadline c = none ↔ Collection.isEmpty c = true := by
  simp [ofCollection]

theorem collection?_ofCollection (deadline : Option Nat) (c : α) :
    collection? α (ofCollection deadline c) =
      .ok (if Collection.isEmpty c = true then none else some c) := by
  unfold ofCollection
  split
  · rfl
  · exact collection?_toValue c deadline

theorem isEmpty_of_filled [LawfulCollection α]
    (h : Filled (some ⟨Collection.toValue c, deadline⟩)) : Collection.isEmpty c = false :=
  (LawfulCollection.isVoid_toValue c).symm.trans (filled_some_iff.1 h)

theorem ofCollection_of_filled [LawfulCollection α]
    (h : Filled (some ⟨Collection.toValue c, deadline⟩)) :
    ofCollection deadline c = some ⟨Collection.toValue c, deadline⟩ :=
  ofCollection_of_not_isEmpty (isEmpty_of_filled h)

end Slot

namespace Keyspace

variable {α β : Type} [Collection α] {ks : Keyspace} {key : Bytes} {c : α} {deadline : Option Nat}

theorem update_of_found [LawfulCollection α]
    (h : ks.live.get? key = some ⟨Collection.toValue c, deadline⟩)
    (f : α → β × α) :
    (ks.update key f).1 = .ok (some (f c).1) ∧
      (ks.update key f).2.live = ks.live.set key (Slot.ofCollection deadline (f c).2) := by
  have hupdate : Slot.update f (ks.live.get? key) =
      .ok (some (f c).1, Slot.ofCollection deadline (f c).2) := by
    rw [h, Slot.update, Slot.collection?_toValue]
    rfl
  have hleft : Slot.LiveAt ks.now (Slot.ofCollection deadline (f c).2) :=
    (Slot.edit_of_update hupdate).liveAt (ks.liveAt_get?_live key)
  exact ks.tryAccess_of_ok key hupdate hleft

theorem update_of_absent (h : ks.live.get? key = none) (f : α → β × α) :
    (ks.update key f).1 = .ok none ∧ (ks.update key f).2.live = ks.live := by
  have hupdate : Slot.update f (ks.live.get? key) = .ok (none, none) := by
    rw [h]
    rfl
  obtain ⟨hresult, hlive⟩ := ks.tryAccess_of_ok key hupdate Slot.liveAt_none
  exact ⟨hresult, hlive.trans (Table.set_of_get?_eq h)⟩

theorem update_of_held [LawfulCollection α] (h : ks.live.get? key = Slot.ofCollection deadline c)
    {f : α → β × α} (hf : Collection.isEmpty c = true → (f c).2 = c) :
    (ks.update key f).1 = .ok (if Collection.isEmpty c = true then none else some (f c).1) ∧
      (ks.update key f).2.live = ks.live.set key (Slot.ofCollection deadline (f c).2) := by
  cases hc : Collection.isEmpty c with
  | true =>
    have hnone : ks.live.get? key = none := h.trans (Slot.ofCollection_of_isEmpty hc)
    obtain ⟨hresult, hlive⟩ := update_of_absent hnone f
    rw [hf hc, ← h, Table.set_of_get?_eq rfl]
    exact ⟨hresult, hlive⟩
  | false => exact update_of_found (h.trans (Slot.ofCollection_of_not_isEmpty hc)) f

/-- A collection is made on demand: an empty one under no deadline. -/
theorem upsert_of_held [LawfulCollection α] (h : ks.live.get? key = Slot.ofCollection deadline c)
    (hc : Collection.isEmpty c = true → c = Collection.empty ∧ deadline = none) (f : α → β × α) :
    (ks.upsert key f).1 = .ok (f c).1 ∧
      (ks.upsert key f).2.live = ks.live.set key (Slot.ofCollection deadline (f c).2) := by
  have hupsert : Slot.upsert f (ks.live.get? key) =
      .ok ((f c).1, Slot.ofCollection deadline (f c).2) := by
    rw [h]
    cases hempty : Collection.isEmpty c with
    | true =>
      obtain ⟨rfl, rfl⟩ := hc hempty
      rw [Slot.ofCollection_of_isEmpty hempty]
      rfl
    | false =>
      rw [Slot.ofCollection_of_not_isEmpty hempty, Slot.upsert, Slot.collection?_toValue]
      rfl
  have hleft : Slot.LiveAt ks.now (Slot.ofCollection deadline (f c).2) :=
    (Slot.edit_of_upsert hupsert).liveAt (ks.liveAt_get?_live key)
  exact ks.tryAccess_of_ok key hupsert hleft

theorem getAs_of_held (h : ks.live.get? key = Slot.ofCollection deadline c) :
    (ks.getAs α key).1 = .ok (if Collection.isEmpty c = true then none else some c) := by
  rw [getAs_fst, h, Slot.collection?_ofCollection]

end Keyspace
end RespStore
