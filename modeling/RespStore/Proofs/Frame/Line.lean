import RespStore.Frame.Decoder

/-! A line ends at the first CRLF, so what is written as a line must have none in it. -/
namespace RespStore

def Bytes.HasBreak (b : Bytes) : Prop := crlf <:+: b

theorem Bytes.not_hasBreak_nil : ¬ HasBreak [] := by
  intro h
  cases List.infix_nil.1 h

theorem Bytes.hasBreak_cons (a : UInt8) (b : Bytes) :
    HasBreak (a :: b) ↔ (a = 13 ∧ b.head? = some 10) ∨ HasBreak b := by
  unfold HasBreak
  rw [List.infix_cons_iff]
  refine or_congr ?_ Iff.rfl
  cases b with
  | nil => simp [crlf]
  | cons c rest => simp [crlf, eq_comm]

theorem Bytes.not_hasBreak_of_not_mem {b : Bytes} (h : 10 ∉ b) : ¬ b.HasBreak := by
  intro hbreak
  exact h (hbreak.subset (by simp [crlf]))

/-- A line break in a whole is in one of two parts, or where they meet. -/
theorem Bytes.hasBreak_append (a b : Bytes) : (a ++ b).HasBreak ↔
    a.HasBreak ∨ b.HasBreak ∨ (a.getLast? = some 13 ∧ b.head? = some 10) := by
  induction a with
  | nil => simp [not_hasBreak_nil]
  | cons c rest ih =>
    rw [List.cons_append, hasBreak_cons, ih, hasBreak_cons]
    cases rest with
    | nil =>
      simp only [List.nil_append, List.head?_nil, List.getLast?_singleton, List.getLast?_nil]
      have := not_hasBreak_nil
      grind
    | cons d rest =>
      simp only [List.cons_append, List.head?_cons, List.getLast?_cons_cons]
      grind

/-- A text that stays on its line. -/
def IsLine (s : String) : Prop := ¬ (Bytes.ofString s).HasBreak

theorem isLine_of_not_mem {s : String} (h : 10 ∉ Bytes.ofString s) : IsLine s :=
  Bytes.not_hasBreak_of_not_mem h

theorem isLine_around_iff {before after s : String} (hbefore : IsLine before)
    (hafter : IsLine after) (hlast : (Bytes.ofString before).getLast? ≠ some 13)
    (hhead : (Bytes.ofString after).head? ≠ some 10) :
    IsLine (before ++ s ++ after) ↔ IsLine s := by
  unfold IsLine at hbefore hafter ⊢
  rw [Bytes.ofString_append, Bytes.ofString_append, Bytes.hasBreak_append, Bytes.hasBreak_append]
  simp only [hbefore, hafter, hlast, hhead, and_false, false_and, or_false, false_or]

namespace Frame

theorem splitLine?_cons (a : UInt8) (b : Bytes) :
    splitLine? (a :: b) = if a = 13 ∧ b.head? = some 10 then some ([], b.tail)
      else (splitLine? b).map fun (line, after) => (a :: line, after) := by
  cases b with
  | nil => simp [splitLine?]
  | cons c rest => simp only [splitLine?, List.head?_cons, Option.some.injEq, List.tail_cons]

theorem splitLine?_eq_some_iff {b line after : Bytes} :
    splitLine? b = some (line, after) ↔ b = line ++ Bytes.crlf ++ after ∧ ¬ line.HasBreak := by
  induction b generalizing line with
  | nil =>
    constructor
    · nofun
    · rintro ⟨h, -⟩
      simp [Bytes.crlf] at h
  | cons a b ih =>
    rw [splitLine?_cons]
    by_cases hend : a = 13 ∧ b.head? = some 10
    · rw [if_pos hend]
      obtain ⟨rfl, hhead⟩ := hend
      obtain ⟨rest, rfl⟩ := List.head?_eq_some_iff.1 hhead
      constructor
      · rintro ⟨⟩
        exact ⟨rfl, Bytes.not_hasBreak_nil⟩
      · rintro ⟨h, hline⟩
        cases line with
        | nil =>
          cases h
          rfl
        | cons c line =>
          obtain ⟨rfl, hb⟩ := List.cons.inj h
          -- A longer line would have this line break in it.
          refine absurd ((Bytes.hasBreak_cons _ _).2 (.inl ⟨rfl, ?_⟩)) hline
          cases line with
          | nil => cases hb
          | cons d line =>
            cases hb
            rfl
    · rw [if_neg hend]
      constructor
      · intro h
        obtain ⟨⟨line', after'⟩, hsplit, heq⟩ := Option.map_eq_some_iff.1 h
        cases heq
        obtain ⟨rfl, hline⟩ := ih.1 hsplit
        refine ⟨rfl, fun hbreak => ?_⟩
        rcases (Bytes.hasBreak_cons _ _).1 hbreak with ⟨ha, hhead⟩ | hbreak
        · obtain ⟨rest, rfl⟩ := List.head?_eq_some_iff.1 hhead
          exact hend ⟨ha, rfl⟩
        · exact hline hbreak
      · rintro ⟨h, hline⟩
        cases line with
        | nil =>
          cases h
          exact absurd ⟨rfl, rfl⟩ hend
        | cons c line =>
          obtain ⟨rfl, hb⟩ := List.cons.inj h
          have hsplit := ih.2 ⟨hb, fun hbreak => hline ((Bytes.hasBreak_cons _ _).2 (.inr hbreak))⟩
          rw [hsplit]
          rfl

theorem takeLine_eq_ok_iff {b line after : Bytes} :
    takeLine b = .ok (line, after) ↔ b = line ++ Bytes.crlf ++ after ∧ ¬ line.HasBreak := by
  rw [← splitLine?_eq_some_iff]
  unfold takeLine
  cases splitLine? b with
  | none => exact ⟨nofun, nofun⟩
  | some split => simp only [Except.ok.injEq, Option.some.injEq]

/-- Sized data may have anything in it. -/
theorem takeSized_eq_ok_iff {n : Nat} {b data after : Bytes} :
    takeSized n b = .ok (data, after) ↔ b = data ++ Bytes.crlf ++ after ∧ data.length = n := by
  unfold takeSized
  constructor
  · intro h
    split at h
    · cases h
    · next hlength =>
      split at h
      · next hend =>
        cases h
        have hdrop : b.drop n = Bytes.crlf ++ b.drop (n + 2) := by
          rw [← hend, ← List.drop_drop, List.take_append_drop]
        rw [List.append_assoc, ← hdrop, List.take_append_drop, List.length_take]
        exact ⟨rfl, by omega⟩
      · cases h
  · rintro ⟨rfl, rfl⟩
    have hlength : ¬ (data ++ Bytes.crlf ++ after).length < data.length + 2 := by
      simp only [List.length_append, Bytes.crlf, List.length_cons, List.length_nil]
      omega
    have hdrop : (data ++ Bytes.crlf ++ after).drop data.length = Bytes.crlf ++ after := by
      rw [List.append_assoc, List.drop_left]
    have hend : ((data ++ Bytes.crlf ++ after).drop data.length).take 2 = Bytes.crlf := by
      rw [hdrop]
      rfl
    rw [if_neg hlength, if_pos hend, ← List.drop_drop, hdrop, List.append_assoc, List.take_left]
    rfl

end Frame
end RespStore
