import Mathlib.Algebra.Order.Field.Basic
import Mathlib.Algebra.Order.Field.Rat
import Mathlib.Data.Rat.Cast.Order
import Mathlib.Tactic.Linarith
import Mathlib.Tactic.Positivity
import Mathlib.Tactic.Ring
import RespStore.Engine
import RespStore.Proofs.Request.Argument
import RespStore.Proofs.Request.Yields

/-! How long a request asks to wait. Seconds are rounded to whole nanoseconds, of which zero means
to wait for ever. -/
namespace RespStore

namespace Binary64

/-- The rational number that a finite number stands for. -/
def value (x : Binary64) : ℚ := x.units / unitsInOne

variable {num den : Nat} {x : Binary64}

theorem nearestEven_eq_zero_iff (hden : 0 < den) : nearestEven num den = 0 ↔ 2 * num ≤ den := by
  unfold nearestEven
  dsimp only
  by_cases hsmall : num < den
  · rw [Nat.div_eq_of_lt hsmall, Nat.mod_eq_of_lt hsmall]
    split <;> omega
  · have hquotient : 0 < num / den := Nat.div_pos (by omega) hden
    split <;> omega

/-- Rounding is off by one half at most. -/
theorem nearestEven_error (hden : 0 < den) :
    |(nearestEven num den : ℚ) - num / den| ≤ 1 / 2 := by
  have hpos : (0 : ℚ) < den := by exact_mod_cast hden
  have hsplit : (num : ℚ) / den = (num / den : ℕ) + (num % den : ℕ) / den := by
    rw [div_eq_iff hpos.ne', add_mul, div_mul_cancel₀ _ hpos.ne']
    exact_mod_cast (Nat.div_add_mod' num den).symm
  have hremainder : ((num % den : ℕ) : ℚ) / den < 1 := by
    rw [div_lt_one hpos]
    exact_mod_cast Nat.mod_lt num hden
  have hnonneg : (0 : ℚ) ≤ ((num % den : ℕ) : ℚ) / den := by positivity
  unfold nearestEven
  dsimp only
  rw [hsplit, abs_le]
  split
  · next hup =>
    have hhalf : (1 : ℚ) / 2 ≤ ((num % den : ℕ) : ℚ) / den := by
      rw [div_le_div_iff₀ two_pos hpos]
      have hdouble : 1 * den ≤ num % den * 2 := by omega
      exact_mod_cast hdouble
    push_cast at *
    constructor <;> linarith
  · next hdown =>
    have hhalf : ((num % den : ℕ) : ℚ) / den ≤ 1 / 2 := by
      rw [div_le_div_iff₀ hpos two_pos]
      have hdouble : num % den * 2 ≤ 1 * den := by omega
      exact_mod_cast hdouble
    constructor <;> linarith

theorem units_of_nonneg (h : ¬ x < zero) : x.units = unitsOfMagnitude x.magnitude := by
  have hplace : ¬ x.place < 0 := h
  unfold place at hplace
  unfold units
  split at hplace
  · next hnegative =>
    have hmagnitude : x.magnitude = 0 := by omega
    rw [if_pos hnegative, hmagnitude]
    rfl
  · next hpositive => rw [if_neg hpositive]

theorem unitsInOne_pos : 0 < unitsInOne := by decide +kernel

theorem value_nonneg (h : ¬ x < zero) : 0 ≤ x.value := by
  rw [value, units_of_nonneg h, Int.cast_natCast]
  exact div_nonneg (Nat.cast_nonneg _) (Nat.cast_nonneg _)

theorem value_mul_eq (h : ¬ x < zero) : x.value * 1000000000 =
    ((unitsOfMagnitude x.magnitude * 1000000000 : ℕ) : ℚ) / (unitsInOne : ℕ) := by
  rw [value, units_of_nonneg h]
  push_cast
  ring

theorem toNanoseconds_error (h : ¬ x < zero) :
    |(x.toNanoseconds : ℚ) - x.value * 1000000000| ≤ 1 / 2 := by
  rw [value_mul_eq h]
  exact nearestEven_error unitsInOne_pos

theorem toNanoseconds_eq_zero_iff (h : ¬ x < zero) :
    x.toNanoseconds = 0 ↔ x.value * 1000000000 ≤ 1 / 2 := by
  have hpos : (0 : ℚ) < (unitsInOne : ℕ) := by exact_mod_cast unitsInOne_pos
  rw [value_mul_eq h, div_le_div_iff₀ hpos two_pos, toNanoseconds,
    nearestEven_eq_zero_iff unitsInOne_pos]
  constructor
  · intro hsmall
    have hsmall' : unitsOfMagnitude x.magnitude * 1000000000 * 2 ≤ 1 * unitsInOne := by omega
    exact_mod_cast hsmall'
  · intro hsmall
    have hsmall' : unitsOfMagnitude x.magnitude * 1000000000 * 2 ≤ 1 * unitsInOne := by
      exact_mod_cast hsmall
    omega

end Binary64

namespace ListCommand

/-- What a reader of list commands gives, other than that of the command that waits. -/
def Waits : ListCommand → Prop
  | .brpop .. => True
  | _ => False

theorem reader?_eq_keysAndTimeout {name : String} {r : Reader ListCommand}
    (h : reader? name = some r) : r = keysAndTimeout ∨ r.Yields fun c => ¬ c.Waits := by
  unfold reader? at h
  split at h <;> cases h
  case h_1 => exact .inl rfl
  all_goals right
  all_goals repeat refine .bind (.any _) fun _ _ => ?_
  all_goals exact .pure id

theorem keysAndTimeout_eq_ok {args rest : List Frame} {c : ListCommand}
    (h : keysAndTimeout args = .ok (c, rest)) : ∃ keys timeout text, c = .brpop keys timeout ∧
      args.map Argument.ofFrame = keys.map .string ++ [.string text] ∧
      timeoutOf text = .ok timeout := by
  unfold keysAndTimeout at h
  obtain ⟨⟨items, left⟩, hitems, h⟩ := bind_eq_ok_iff.1 h
  obtain ⟨items', hread, heq⟩ := bind_eq_ok_iff.1 hitems
  cases heq
  have hargs : args.map Argument.ofFrame = items.map .string := by
    dsimp only at hread
    split at hread
    · cases hread
    · exact Frame.mapM_bytes_eq_ok hread
  dsimp only at h
  rcases hreverse : items.reverse with _ | ⟨text, _ | ⟨key, keys⟩⟩ <;> rw [hreverse] at h
  · cases h
  · cases h
  · obtain ⟨⟨timeout, left⟩, htimeout, h⟩ := bind_eq_ok_iff.1 h
    cases h
    obtain ⟨timeout', htext, heq⟩ := bind_eq_ok_iff.1 htimeout
    cases heq
    have hitems : items = (key :: keys).reverse ++ [text] := by
      rw [← List.reverse_cons, ← hreverse, List.reverse_reverse]
    refine ⟨_, _, text, rfl, ?_, htext⟩
    rw [hargs, hitems, List.map_append]
    rfl

/-- A timeout is the rounding of a number that is not negative. -/
theorem timeoutOf_eq_ok {text : Bytes} {timeout : Nat} (h : timeoutOf text = .ok timeout) :
    ∃ x, Binary64.read? text = some x ∧ x.isFinite ∧ ¬ x < .zero ∧ timeout = x.toNanoseconds := by
  unfold timeoutOf at h
  split at h
  · cases h
  · next x hread =>
    rw [Option.filter_eq_some_iff] at hread
    split at h
    · cases h
    · next hsign =>
      split at h
      · cases h
      · exact ⟨x, hread.1, hread.2, hsign, (Except.ok.inj h).symm⟩

end ListCommand

namespace Command

variable {request : Frame} {keys : List Bytes} {timeout : Nat}

theorem reader?_eq_keysAndTimeout {name : String} {r : Reader Command} (h : reader? name = some r) :
    r = Command.lists <$> ListCommand.keysAndTimeout ∨
      r.Yields fun c => ∀ keys timeout, c ≠ .lists (.brpop keys timeout) := by
  have hmap {α : Type} {f : α → Command} {found : Option (Reader α)}
      (hr : found.map (f <$> ·) = some r)
      (hf : ∀ a keys timeout, f a ≠ .lists (.brpop keys timeout)) :
      r.Yields fun c => ∀ keys timeout, c ≠ .lists (.brpop keys timeout) := by
    obtain ⟨r', -, rfl⟩ := Option.map_eq_some_iff.1 hr
    exact .map (.any r') fun a _ => hf a
  simp only [reader?, Option.orElse_eq_orElse, Option.orElse_eq_or, Option.or_eq_some_iff] at h
  rcases h with h | ⟨-, h | ⟨-, h | ⟨-, h | ⟨-, h | ⟨-, h | ⟨-, h | ⟨-, h⟩⟩⟩⟩⟩⟩⟩
  case inr.inr.inl =>
    obtain ⟨r', hr', rfl⟩ := Option.map_eq_some_iff.1 h
    rcases ListCommand.reader?_eq_keysAndTimeout hr' with rfl | hyields
    · exact .inl rfl
    · refine .inr (.map hyields fun c hc keys timeout heq => hc ?_)
      cases heq
      trivial
  all_goals exact .inr (hmap h fun _ _ _ heq => by cases heq)

theorem exists_timeout (h : ofFrame request = .ok (.lists (.brpop keys timeout))) :
    ∃ items text, request = .array items ∧
      items.getLast?.map Argument.ofFrame = some (.string text) ∧
      ListCommand.timeoutOf text = .ok timeout := by
  unfold ofFrame at h
  split at h
  · unfold ofArguments at h
    split at h
    · cases h
    · next first rest =>
      obtain ⟨name, -, h⟩ := bind_eq_ok_iff.1 h
      split at h
      · cases h
      · next reader hreader =>
        rcases reader?_eq_keysAndTimeout hreader with rfl | hyields
        · unfold Reader.run at h
          split at h
          · next c hread =>
            cases h
            obtain ⟨⟨c, left⟩, hread, heq⟩ := bind_eq_ok_iff.1 hread
            cases heq
            obtain ⟨_, _, text, heq, hrest, htext⟩ := ListCommand.keysAndTimeout_eq_ok hread
            cases heq
            refine ⟨first :: rest, text, rfl, ?_, htext⟩
            rw [← List.getLast?_map, List.map_cons, hrest, ← List.cons_append,
              List.getLast?_concat]
          · cases h
          · cases h
          · cases h
        · exact absurd rfl (hyields.run h keys timeout)
  · cases h

/-- A request that waits has a text that reads as a number of seconds, and its timeout is these
seconds in nanoseconds, to the nearest. It waits for ever not only where they are zero, but wherever
they are half a nanosecond or less, and where the end of waiting is too far off to be named. -/
theorem no_timeout_iff_at_most_half_nanosecond
    (h : ofFrame request = .ok (.lists (.brpop keys timeout))) :
    ∃ items text x, request = .array items ∧
      items.getLast?.map Argument.ofFrame = some (.string text) ∧
      Binary64.read? text = some x ∧ 0 ≤ x.value ∧
      |(timeout : ℚ) - x.value * 1000000000| ≤ 1 / 2 ∧
      (timeout = 0 ↔ x.value ≤ 1 / 2000000000) ∧
      ∀ now, Waiting.deadlineAfter now timeout = none ↔ x.value ≤ 1 / 2000000000 ∨
        horizon * Waiting.nanosPerMilli ≤ now * Waiting.nanosPerMilli + timeout := by
  obtain ⟨items, text, hrequest, hlast, htimeout⟩ := exists_timeout h
  obtain ⟨x, hread, -, hsign, hrounded⟩ := ListCommand.timeoutOf_eq_ok htimeout
  have hvalue : 0 ≤ x.value := Binary64.value_nonneg hsign
  have herror : |(timeout : ℚ) - x.value * 1000000000| ≤ 1 / 2 := by
    rw [hrounded]
    exact Binary64.toNanoseconds_error hsign
  have hzero : timeout = 0 ↔ x.value ≤ 1 / 2000000000 := by
    rw [hrounded, Binary64.toNanoseconds_eq_zero_iff hsign]
    constructor <;> intro hsmall <;> linarith
  refine ⟨items, text, x, hrequest, hlast, hread, hvalue, herror, hzero, fun now => ?_⟩
  rw [← hzero, Waiting.deadlineAfter]
  by_cases hforever : timeout = 0 <;> simp [hforever]

/-- Six tenths of a nanosecond are a whole one, with a deadline. -/
theorem timeout_of_most_of_nanosecond :
    let request := Engine.request "BRPOP" [Bytes.ofString "k", Bytes.ofString "6e-10"]
    ofFrame request = .ok (.lists (.brpop [Bytes.ofString "k"] 1)) ∧
      ∃ items text x, request = .array items ∧
        items.getLast?.map Argument.ofFrame = some (.string text) ∧
        Binary64.read? text = some x ∧ 0 ≤ x.value ∧
        |((1 : ℕ) : ℚ) - x.value * 1000000000| ≤ 1 / 2 ∧
        ((1 : ℕ) = 0 ↔ x.value ≤ 1 / 2000000000) ∧
        ∀ now, Waiting.deadlineAfter now 1 = none ↔ x.value ≤ 1 / 2000000000 ∨
          horizon * Waiting.nanosPerMilli ≤ now * Waiting.nanosPerMilli + 1 := by
  intro request
  have hread : ofFrame request = .ok (.lists (.brpop [Bytes.ofString "k"] 1)) := by
    decide +kernel
  exact ⟨hread, no_timeout_iff_at_most_half_nanosecond hread⟩

/-- A tenth of a nanosecond is no time at all, so the request that names it waits for ever. -/
theorem not_all_positive_timeouts_end :
    ¬ ∀ (keys : List Bytes) (text : Bytes) (timeout : Nat) (x : Binary64),
      ofFrame (.bulkArray (Bytes.ofString "BRPOP" :: keys ++ [text])) =
        .ok (.lists (.brpop keys timeout)) →
      Binary64.read? text = some x → Binary64.zero < x →
      timeout ≠ 0 ∧ Waiting.deadlineAfter 0 timeout ≠ none := by
  intro h
  have hread : ofFrame (.bulkArray [Bytes.ofString "BRPOP", [107], Bytes.ofString "1e-10"]) =
      .ok (.lists (.brpop [[107]] 0)) := by decide +kernel
  have hpositive : ∃ x, Binary64.read? (Bytes.ofString "1e-10") = some x ∧ Binary64.zero < x :=
    ⟨(Binary64.read? (Bytes.ofString "1e-10")).get (by decide +kernel), by decide +kernel,
      by decide +kernel⟩
  obtain ⟨x, htext, hx⟩ := hpositive
  exact (h [[107]] _ 0 x hread htext hx).1 rfl

end Command
end RespStore
