import Mathlib.Algebra.Group.Int.Defs
import RespStore.Command
import RespStore.Result

/-! What every value that a reader gives satisfies, and so every command that is read. -/
namespace RespStore

namespace Reader

variable {α β : Type}

theorem run_eq_ok_iff {r : Reader α} {command : String} {args : List Frame} {a : α} :
    r.run command args = .ok a ↔ r args = .ok (a, []) := by
  unfold Reader.run
  constructor
  · intro h
    split at h
    · next hr =>
      cases h
      exact hr
    · cases h
    · cases h
    · cases h
  · intro h
    rw [h]

/-- All that a reader gives, from whatever arguments, satisfies a predicate. -/
def Yields (r : Reader α) (P : α → Prop) : Prop :=
  ∀ args a rest, r args = .ok (a, rest) → P a

namespace Yields

theorem any (r : Reader α) : r.Yields fun _ => True := fun _ _ _ _ => trivial

theorem pure {P : α → Prop} {a : α} (h : P a) : Yields (Pure.pure a) P := by
  intro args a' rest ha
  cases ha
  exact h

theorem bind {r : Reader α} {next : α → Reader β} {P : α → Prop} {Q : β → Prop}
    (h : r.Yields P) (hnext : ∀ a, P a → (next a).Yields Q) : Yields (r >>= next) Q := by
  intro args b rest hb
  obtain ⟨⟨a, middle⟩, ha, hb⟩ := bind_eq_ok_iff.1 hb
  exact hnext a (h _ _ _ ha) _ _ _ hb

theorem map {r : Reader α} {f : α → β} {P : α → Prop} {Q : β → Prop} (h : r.Yields P)
    (hf : ∀ a, P a → Q (f a)) : Yields (f <$> r) Q := by
  intro args b rest hb
  obtain ⟨⟨a, middle⟩, ha, hb⟩ := bind_eq_ok_iff.1 hb
  cases hb
  exact hf a (h _ _ _ ha)

theorem all {read : List Frame → Except RequestError α} {P : α → Prop}
    (h : ∀ args a, read args = .ok a → P a) : (Reader.all read).Yields P := by
  intro args a rest ha
  obtain ⟨a', ha', heq⟩ := bind_eq_ok_iff.1 ha
  cases heq
  exact h _ _ ha'

theorem run {r : Reader α} {P : α → Prop} (h : r.Yields P) {command : String}
    {args : List Frame} {a : α} (ha : r.run command args = .ok a) : P a :=
  h _ _ _ (run_eq_ok_iff.1 ha)

end Yields

/-- A time to live is an amount that is positive and, in milliseconds, a number of 64 bits. -/
theorem ttlOf_eq_ok_iff {command : String} {millis ttl : Nat} {amount : Int64} :
    ttlOf command millis amount = .ok ttl ↔
      0 < ttl ∧ (ttl : Int) ≤ 2 ^ 63 - 1 ∧ amount.toInt * millis = ttl := by
  have hmax : Int64.maxValue.toInt = 2 ^ 63 - 1 := by decide
  simp only [ttlOf, hmax]
  constructor
  · intro h
    split at h
    · cases h
      omega
    · cases h
  · rintro ⟨hpos, hle, htotal⟩
    have hbounds : 0 < amount.toInt * millis ∧ amount.toInt * millis ≤ 2 ^ 63 - 1 := by omega
    rw [if_pos hbounds, htotal, Int.toNat_natCast]

theorem pos_of_ttlOf {command : String} {millis ttl : Nat} {amount : Int64}
    (h : ttlOf command millis amount = .ok ttl) : 0 < ttl :=
  (ttlOf_eq_ok_iff.1 h).1

theorem ttl_yields (command : String) (millis : Nat) : (ttl command millis).Yields (0 < ·) := by
  intro args ttl rest h
  obtain ⟨⟨amount, middle⟩, -, h⟩ := bind_eq_ok_iff.1 h
  obtain ⟨total, htotal, heq⟩ := bind_eq_ok_iff.1 h
  cases heq
  exact pos_of_ttlOf htotal

theorem next_cons_eq_ok_iff {as : Frame → Except RequestError α} {frame : Frame}
    {rest left : List Frame} {a : α} :
    next as (frame :: rest) = .ok (a, left) ↔ as frame = .ok a ∧ left = rest := by
  constructor
  · intro h
    obtain ⟨a', ha, heq⟩ := bind_eq_ok_iff.1 h
    cases heq
    exact ⟨ha, rfl⟩
  · rintro ⟨ha, rfl⟩
    exact bind_eq_ok_iff.2 ⟨a, ha, rfl⟩

theorem all_eq_ok_iff {read : List Frame → Except RequestError α} {args left : List Frame} {a : α} :
    all read args = .ok (a, left) ↔ read args = .ok a ∧ left = [] := by
  constructor
  · intro h
    obtain ⟨a', ha, heq⟩ := bind_eq_ok_iff.1 h
    cases heq
    exact ⟨ha, rfl⟩
  · rintro ⟨ha, rfl⟩
    exact bind_eq_ok_iff.2 ⟨a, ha, rfl⟩

theorem bind_eq_ok {r : Reader α} {next : α → Reader β} {args middle rest : List Frame} {a : α}
    {b : β} (h : r args = .ok (a, middle)) (hnext : next a middle = .ok (b, rest)) :
    (r >>= next) args = .ok (b, rest) :=
  bind_eq_ok_iff.2 ⟨(a, middle), h, hnext⟩

end Reader

namespace Command

variable {request : Frame}

/-- What all readers give, all commands are that come from requests. -/
theorem of_ofFrame {P : Command → Prop}
    (hP : ∀ {name : String} {r : Reader Command}, reader? name = some r → r.Yields P) {c : Command}
    (h : ofFrame request = .ok c) : P c := by
  unfold ofFrame at h
  split at h
  · unfold ofArguments at h
    split at h
    · cases h
    · obtain ⟨name, -, h⟩ := bind_eq_ok_iff.1 h
      split at h
      · cases h
      · next reader hreader => exact (hP hreader).run h
  · cases h

theorem strings_of_ofFrame {P : StringCommand → Prop}
    (hP : ∀ {name : String} {r : Reader StringCommand},
      StringCommand.reader? name = some r → r.Yields P) {c : StringCommand}
    (h : ofFrame request = .ok (.strings c)) : P c := by
  refine of_ofFrame (P := fun c => ∀ s, c = .strings s → P s) (fun {name r} hr => ?_) h c rfl
  have hmap {α : Type} {f : α → Command} {found : Option (Reader α)}
      (hfound : found.map (f <$> ·) = some r) (hf : ∀ a s, f a ≠ .strings s) :
      r.Yields fun c => ∀ s, c = .strings s → P s := by
    obtain ⟨r', -, rfl⟩ := Option.map_eq_some_iff.1 hfound
    exact .map (.any r') fun a _ s heq => absurd heq (hf a s)
  simp only [reader?, Option.orElse_eq_orElse, Option.orElse_eq_or, Option.or_eq_some_iff] at hr
  rcases hr with h | ⟨-, h | ⟨-, h | ⟨-, h | ⟨-, h | ⟨-, h | ⟨-, h | ⟨-, h⟩⟩⟩⟩⟩⟩⟩
  case inr.inl =>
    obtain ⟨r', hr', rfl⟩ := Option.map_eq_some_iff.1 h
    refine .map (hP hr') fun s hs s' heq => ?_
    cases heq
    exact hs
  all_goals exact hmap h fun _ _ heq => by cases heq

theorem ofFrame_array {name : Frame} {word : String} {r : Reader Command}
    (hname : readName name = .ok word) (hr : reader? word = some r) (args : List Frame) :
    ofFrame (.array (name :: args)) = r.run word args := by
  unfold ofFrame ofArguments
  simp only [hname, hr, bind, Except.bind]

theorem readName_bulk {name word : String} (hword : Text.lowercase name = word) :
    readName (.bulk (Bytes.ofString name)) = .ok word := by
  rw [readName, Bytes.toString?_ofString]
  exact congrArg Except.ok hword

theorem ofFrame_bulkArray {α : Type} {family : α → Command} {name word : String} {r : Reader α}
    (hword : Text.lowercase name = word) (hr : reader? word = some (family <$> r))
    {args : List Bytes} {c : α} (h : r (args.map .bulk) = .ok (c, [])) :
    ofFrame (.bulkArray (Bytes.ofString name :: args)) = .ok (family c) := by
  have hread : ofFrame (.bulkArray (Bytes.ofString name :: args)) =
      (family <$> r).run word (args.map .bulk) := ofFrame_array (readName_bulk hword) hr _
  rw [hread, Reader.run_eq_ok_iff]
  exact bind_eq_ok_iff.2 ⟨(c, []), h, rfl⟩

end Command
end RespStore
