import RespStore.Proofs.Reachable
import RespStore.Proofs.SortedSet

/-! Where sorted sets come from: each that is stored has come about from the empty one by edits. -/
namespace RespStore
open Keyspace

theorem SortedSetCommand.snd_addMember (condition : Option ScoreCondition) (changed : Bool)
    (z : SortedSet) (scored : Binary64 × Bytes) :
    (addMember condition changed z scored).2 = z ∨
      (addMember condition changed z scored).2 = (z.insert scored.2 scored.1).2 := by
  unfold addMember
  dsimp only
  split
  · exact .inl rfl
  · exact .inl rfl
  · right
    split <;> next heq => rw [heq]

namespace SortedSet

/-- There are edits that lead from the empty set to this one. -/
def Built (z : SortedSet) : Prop := ∃ edits : List Edit, edits.foldl edit empty = z

theorem built_empty : empty.Built := ⟨[], rfl⟩

namespace Built

variable {z : SortedSet}

theorem edit (h : z.Built) (e : Edit) : (z.edit e).Built := by
  obtain ⟨edits, rfl⟩ := h
  refine ⟨edits ++ [e], ?_⟩
  rw [List.foldl_append]
  rfl

theorem wellFormed (h : z.Built) : z.WellFormed := by
  obtain ⟨edits, rfl⟩ := h
  exact wellFormed_foldl_edit edits wellFormed_empty

theorem tally {ι : Type} {step : SortedSet → ι → Bool × SortedSet}
    (hstep : ∀ {z : SortedSet} (item : ι), z.Built → (step z item).2.Built) (h : z.Built)
    (items : List ι) : (tally step z items).2.Built := by
  induction items generalizing z with
  | nil => exact h
  | cons item rest ih => exact ih (hstep item h)

theorem addMember (condition : Option ScoreCondition) (changed : Bool)
    (scored : Binary64 × Bytes) (h : z.Built) :
    (SortedSetCommand.addMember condition changed z scored).2.Built := by
  have hinserted : (z.insert scored.2 scored.1).2.Built := h.edit (.insert scored.2 scored.1)
  rcases SortedSetCommand.snd_addMember condition changed z scored with heq | heq
  · rwa [heq]
  · rwa [heq]

end Built
end SortedSet

namespace Slot

variable {now : Nat} {slot left : Slot}

def Built (slot : Slot) : Prop := ∀ e ∈ slot, ∀ z, e.value = .sortedSet z → z.Built

/-- A sorted set that is left has been built, if one that was found had been. -/
def StaysBuilt (_now : Nat) (found left : Slot) : Prop := found.Built → left.Built

theorem built_none : Built none := nofun

theorem built_some_iff {e : Entry} : Built (some e) ↔ ∀ z, e.value = .sortedSet z → z.Built := by
  simp [Built]

theorem admitsChanges_staysBuilt {ttls : Nat → Prop} : AdmitsChanges ttls StaysBuilt where
  keep _ h := h
  clear _ _ := built_none
  overwrite _ _ _ := built_some_iff.2 nofun
  write _ _ _ _ _ := built_some_iff.2 nofun
  redate _ _ _ h := built_some_iff.2 fun z hz => built_some_iff.1 h z hz

section Collections

variable {α β : Type} [Collection α]

theorem built_ofCollection {deadline : Option Nat} {c : α}
    (hc : ∀ z, Collection.toValue c = .sortedSet z → z.Built) :
    Built (ofCollection deadline c) := by
  unfold ofCollection
  split
  · exact built_none
  · exact built_some_iff.2 hc

theorem admits_staysBuilt (hα : ∀ (c : α) (z : SortedSet), Collection.toValue c ≠ .sortedSet z) :
    Admits α StaysBuilt where
  upsert {now slot left β f result} hf _ := by
    unfold upsert at hf
    split at hf
    · cases hf
    · cases hf
      exact built_ofCollection fun z hz => absurd hz (hα _ z)
  update {now slot left β f result} hf h := by
    unfold update at hf
    split at hf
    · cases hf
    · cases hf
      exact h
    · cases hf
      exact built_ofCollection fun z hz => absurd hz (hα _ z)

end Collections

theorem built_ofSortedSet {deadline : Option Nat} {z : SortedSet} (hz : z.Built) :
    Built (ofCollection deadline z) := by
  refine built_ofCollection fun z' hz' => ?_
  cases hz'
  exact hz

theorem built_getD {found : Option SortedSet} (hfound : collection? SortedSet slot = .ok found)
    (h : slot.Built) : (found.getD SortedSet.empty).Built := by
  unfold collection? at hfound
  split at hfound
  · cases hfound
    exact SortedSet.built_empty
  · split at hfound
    · next hvalue =>
      cases hfound
      exact built_some_iff.1 h _ (Collection.ofValue?_eq_some_iff.1 hvalue)
    · cases hfound

section Edits

variable {β : Type} {f : SortedSet → β × SortedSet}
  (hf : ∀ {z : SortedSet}, z.Built → (f z).2.Built)
include hf

theorem staysBuilt_of_upsert {result : β} (hok : upsert f slot = .ok (result, left)) :
    StaysBuilt now slot left := by
  intro h
  unfold upsert at hok
  split at hok
  · cases hok
  · next hfound =>
    cases hok
    exact built_ofSortedSet (hf (built_getD hfound h))

theorem staysBuilt_of_update {result : Option β} (hok : update f slot = .ok (result, left)) :
    StaysBuilt now slot left := by
  intro h
  unfold update at hok
  split at hok
  · cases hok
  · cases hok
    exact h
  · next hfound =>
    cases hok
    exact built_ofSortedSet (hf (built_getD hfound h))

end Edits
end Slot

theorem SortedSetCommand.staysBuilt_accesses (c : SortedSetCommand) :
    Accesses Slot.StaysBuilt c.named fun ks => c.exec ks := by
  have hkeep {now : Nat} (slot : Slot) : Slot.StaysBuilt now slot slot := fun h => h
  by_cases hreads : c.onlyReads = true
  · exact (c.reads_accesses hreads).of_untouched hkeep
  have hremoved (key : Bytes) {remove : SortedSet → Nat × SortedSet}
      (hremove : ∀ {z : SortedSet}, z.Built → (remove z).2.Built) :
      Accesses Slot.StaysBuilt [key] fun ks => removedBy ks key remove :=
    .answer (.tryAccess List.mem_cons_self hkeep (Slot.staysBuilt_of_update hremove))
      fun removed => .count (removed.getD 0)
  cases c with
  | zadd key condition changed added =>
    have hadd {z : SortedSet} (h : z.Built) :
        (tally (addMember condition changed) z added).2.Built :=
      h.tally (fun scored h => h.addMember condition changed scored) added
    exact .answer (.tryAccess List.mem_cons_self hkeep (Slot.staysBuilt_of_upsert hadd)) Frame.count
  | zrem key removed =>
    exact hremoved key fun h => h.tally (fun member h => h.edit (.remove member)) removed
  | zremrangebyrank key start stop =>
    exact hremoved key fun h => h.edit (.removeRangeByRank start.toInt stop.toInt)
  | zremrangebyscore key min max => exact hremoved key fun h => h.edit (.removeRangeByScore min max)
  | _ => exact absurd rfl hreads

variable [Glob.Matcher]

theorem Command.exec_built (c : Command) (client : Client) {ks : Keyspace}
    (h : ∀ key, Slot.Built (ks.entries.get? key)) :
    ∀ key, Slot.Built ((c.exec ks client).2.1.entries.get? key) := by
  have hother {α : Type} [Collection α]
      (hα : ∀ (c : α) (z : SortedSet), Collection.toValue c ≠ .sortedSet z) :
      Slot.Admits α Slot.StaysBuilt := Slot.admits_staysBuilt hα
  rcases c.accesses_or_flushes Slot.admitsChanges_staysBuilt (hother nofun) (hother nofun)
    (hother nofun) SortedSetCommand.staysBuilt_accesses client with ⟨keys, hop⟩ | hflush
  · exact hop.forall Slot.built_none (fun hstays => hstays) h
  · rw [hflush]
    exact fun _ => Slot.built_none

/-- Wherever a server gets to, the sorted sets that are stored have been built by edits. -/
theorem Keyspace.Reachable.built {ks : Keyspace} (h : ks.Reachable) {key : Bytes} {z : SortedSet}
    {deadline : Option Nat} (hz : ks.live.get? key = some ⟨.sortedSet z, deadline⟩) : z.Built := by
  have hslots := h.forall Slot.built_none fun c client hks => c.exec_built client hks
  have hlive : Slot.Built (ks.live.get? key) :=
    get?_live_of_forall Slot.built_none hslots key
  rw [hz] at hlive
  exact Slot.built_some_iff.1 hlive z rfl

end RespStore
