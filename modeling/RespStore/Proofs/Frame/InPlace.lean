import RespStore.Proofs.Frame.Grammar

/-! Frames read in place: from a position in a buffer, with indexes that have to fit in 64 bits and
slices that have to lie in the buffer. -/
namespace RespStore.Frame
namespace InPlace

/-- What stops a reader: the bytes that it finds, or an index or a slice of its own. -/
inductive Fault where
  | unread (cause : ParseError)
  | overflow
  | outside
  deriving DecidableEq, Repr

def plus (i n : Nat) : Except Fault Nat :=
  if i + n < Nat.pow 2 64 then .ok (i + n) else .error .overflow

def slice (b : Bytes) (i j : Nat) : Except Fault Bytes :=
  if i ≤ j ∧ j ≤ b.length then .ok ((b.drop i).take (j - i)) else .error .outside

/-- Where the first CRLF begins, among all neighbouring bytes. -/
def findBreak? (b : Bytes) : Option Nat := (b.zip b.tail).findIdx? (· == (13, 10))

def readByte (b : Bytes) (i : Nat) : Except Fault (UInt8 × Nat) :=
  if b.length ≤ i then .error (.unread .incomplete)
  else
    match b[i]? with
    | none => .error .outside
    | some x => do .ok (x, ← plus i 1)

def readLine (b : Bytes) (start : Nat) : Except Fault (Bytes × Nat) :=
  if b.length < start then .error (.unread .incomplete)
  else do
    match findBreak? (← slice b start b.length) with
    | none => .error (.unread .incomplete)
    | some n =>
      let stop ← plus start n
      let next ← plus stop 2
      .ok (← slice b start stop, next)

/-- The `n` bytes at a position, and the position after the CRLF that has to follow them. An end too
far away for an index is refused as a length. -/
def readSized (b : Bytes) (n start : Nat) : Except Fault (Bytes × Nat) :=
  match plus start n with
  | .error _ => .error (.unread .invalidBulkLength)
  | .ok stop => do
    let next ← plus stop 2
    if b.length < next then .error (.unread .incomplete)
    else if (← slice b stop next) = Bytes.crlf then .ok (← slice b start stop, next)
    else .error (.unread .lengthMismatch)

def readAll (one : Nat → Except Fault (Frame × Nat)) : Nat → Nat → Except Fault (List Frame × Nat)
  | 0, i => .ok ([], i)
  | n + 1, i => do
    let (frame, i) ← one i
    let (frames, i) ← readAll one n i
    .ok (frame :: frames, i)

def understood {α : Type} (r : Except ParseError α) : Except Fault α := r.mapError .unread

def readBody (b : Bytes) (one : Nat → Except Fault (Frame × Nat)) (marker : Marker) (i : Nat) :
    Except Fault (Frame × Nat) := do
  let (line, i) ← readLine b i
  match marker with
  | .simple => .ok (.simple (← understood (readText line)), i)
  | .error => .ok (.error (← understood (readText line)), i)
  | .integer => .ok (.integer (← understood (readInteger line)), i)
  | .null => .ok (.null, i)
  | .bulk =>
    match ← understood (readLength .invalidBulkLength line) with
    | none => .ok (.nullBulk, i)
    | some n =>
      let (data, i) ← readSized b n i
      .ok (.bulk data, i)
  | .bulkError =>
    match ← understood (readLength .invalidBulkLength line) with
    | none => .ok (.null, i)
    | some n =>
      let (data, i) ← readSized b n i
      .ok (.error (← understood (readText data)), i)
  | .array =>
    match ← understood (readLength .invalidArrayLength line) with
    | none => .ok (.nullArray, i)
    | some n =>
      let (frames, i) ← readAll one n i
      .ok (.array frames, i)

def readWithin (b : Bytes) : Nat → Nat → Except Fault (Frame × Nat)
  | 0, _ => .error (.unread .incomplete)
  | depth + 1, i => do
    let (x, i) ← readByte b i
    let marker ← understood (Marker.ofByte x)
    readBody b (readWithin b depth) marker i

def readFrame (b : Bytes) : Except Fault (Frame × Nat) := readWithin b b.length 0

/-- From every position in `b`, `q` reads what `p` reads from the bytes after it. -/
def Follows {α : Type} (b : Bytes) (p : Bytes → Except ParseError (α × Bytes))
    (q : Nat → Except Fault (α × Nat)) : Prop :=
  ∀ i ≤ b.length,
    (∃ a j, j ≤ b.length ∧ p (b.drop i) = .ok (a, b.drop j) ∧ q i = .ok (a, j)) ∨
      ∃ cause, p (b.drop i) = .error cause ∧ q i = .error (.unread cause)

namespace Follows

variable {α β : Type} {b : Bytes}

theorem pure (a : α) : Follows b (fun rest => .ok (a, rest)) fun i => .ok (a, i) :=
  fun i hi => .inl ⟨a, i, hi, rfl, rfl⟩

theorem of_line {r : Except ParseError α} {p : α → Bytes → Except ParseError (β × Bytes)}
    {q : α → Nat → Except Fault (β × Nat)} (h : ∀ a, r = .ok a → Follows b (p a) (q a)) :
    Follows b (fun rest => r >>= fun a => p a rest) fun i => understood r >>= fun a => q a i := by
  cases r with
  | error cause => exact fun _ _ => .inr ⟨cause, rfl, rfl⟩
  | ok a => exact h a rfl

theorem bind {p : Bytes → Except ParseError (α × Bytes)} {q : Nat → Except Fault (α × Nat)}
    {p' : α × Bytes → Except ParseError (β × Bytes)} {q' : α × Nat → Except Fault (β × Nat)}
    (h : Follows b p q) (h' : ∀ a, Follows b (fun rest => p' (a, rest)) fun i => q' (a, i)) :
    Follows b (fun rest => p rest >>= p') fun i => q i >>= q' := by
  intro i hi
  rcases h i hi with ⟨a, j, hj, hp, hq⟩ | ⟨cause, hp, hq⟩
  · dsimp only
    rw [hp, hq]
    exact h' a j hj
  · dsimp only
    rw [hp, hq]
    exact .inr ⟨cause, rfl, rfl⟩

end Follows

theorem plus_eq_ok {i n : Nat} (h : i + n < 18446744073709551616) : plus i n = .ok (i + n) := if_pos h

theorem slice_eq_ok {b : Bytes} {i j : Nat} (h : i ≤ j ∧ j ≤ b.length) :
    slice b i j = .ok ((b.drop i).take (j - i)) := if_pos h

theorem findBreak?_cons (a : UInt8) (b : Bytes) : findBreak? (a :: b) =
    if a = 13 ∧ b.head? = some 10 then some 0 else (findBreak? b).map (· + 1) := by
  cases b with
  | nil => simp [findBreak?]
  | cons c rest => simp [findBreak?, List.findIdx?_cons]

theorem splitLine?_eq_findBreak? (b : Bytes) :
    splitLine? b = (findBreak? b).map fun n => (b.take n, b.drop (n + 2)) := by
  induction b with
  | nil => rfl
  | cons a b ih =>
    rw [splitLine?_cons, findBreak?_cons]
    split
    · cases b <;> rfl
    · rw [ih]
      cases findBreak? b <;> rfl

theorem le_of_findBreak? {b : Bytes} {n : Nat} (h : findBreak? b = some n) : n + 2 ≤ b.length := by
  have hsplit : splitLine? b = some (b.take n, b.drop (n + 2)) := by
    rw [splitLine?_eq_findBreak?, h]
    rfl
  have hb := congrArg List.length (eq_of_splitLine? hsplit)
  simp only [List.length_append, List.length_take, List.length_drop, Bytes.crlf, List.length_cons,
    List.length_nil] at hb
  omega

theorem readAll_follows {b : Bytes} {p : Bytes → Except ParseError (Frame × Bytes)}
    {q : Nat → Except Fault (Frame × Nat)} (h : Follows b p q) (n : Nat) :
    Follows b (parseAll p n) (readAll q n) := by
  induction n with
  | zero => exact .pure []
  | succ n ih => exact h.bind fun f => ih.bind fun fs => .pure (f :: fs)

theorem lt_of_readLength {negative : ParseError} {line : Bytes} {n : Nat}
    (h : readLength negative line = .ok (some n)) : n < 9223372036854775808 := by
  have hn := Decimal.int64_contains_iff.1 (readLength_eq_some_iff.1 h).2
  omega

section
variable {b : Bytes} (hb : b.length + 1 < 9223372036854775808)
include hb

theorem readLine_follows : Follows b takeLine (readLine b) := by
  intro i hi
  have hwhole : slice b i b.length = .ok (b.drop i) := by
    rw [slice_eq_ok ⟨hi, Nat.le_refl _⟩, List.take_of_length_le (List.length_drop ▸ Nat.le_refl _)]
  unfold readLine takeLine
  rw [if_neg (Nat.not_lt.2 hi), splitLine?_eq_findBreak?, hwhole]
  cases hbreak : findBreak? (b.drop i) with
  | none => exact .inr ⟨.incomplete, rfl, by simp [bind, Except.bind, hbreak]⟩
  | some n =>
    have hn := le_of_findBreak? hbreak
    rw [List.length_drop] at hn
    have hslice : slice b i (i + n) = .ok ((b.drop i).take n) := by
      rw [slice_eq_ok ⟨by omega, by omega⟩, Nat.add_sub_cancel_left]
    refine .inl ⟨(b.drop i).take n, i + n + 2, by omega, ?_, ?_⟩
    · rw [Option.map_some, List.drop_drop]
      rfl
    · simp [bind, Except.bind, hbreak, plus_eq_ok (show i + n < _ by omega),
        plus_eq_ok (show i + n + 2 < _ by omega), hslice]

theorem readSized_follows {n : Nat} (hn : n < 9223372036854775808) :
    Follows b (takeSized n) (readSized b n) := by
  intro i hi
  unfold readSized takeSized
  rw [plus_eq_ok (by omega), List.length_drop]
  simp only [plus_eq_ok (show i + n + 2 < _ by omega), bind, Except.bind]
  by_cases hlength : b.length < i + n + 2
  · rw [if_pos (by omega), if_pos hlength]
    exact .inr ⟨.incomplete, rfl, rfl⟩
  · have hend : slice b (i + n) (i + n + 2) = .ok (((b.drop i).drop n).take 2) := by
      rw [slice_eq_ok ⟨by omega, by omega⟩, List.drop_drop, Nat.add_sub_cancel_left]
    have hdata : slice b i (i + n) = .ok ((b.drop i).take n) := by
      rw [slice_eq_ok ⟨by omega, by omega⟩, Nat.add_sub_cancel_left]
    rw [if_neg (by omega), if_neg hlength]
    simp only [hend, hdata]
    split
    · exact .inl ⟨_, i + n + 2, by omega, by rw [List.drop_drop, Nat.add_assoc], rfl⟩
    · exact .inr ⟨.lengthMismatch, rfl, rfl⟩

theorem readBody_follows {p : Bytes → Except ParseError (Frame × Bytes)}
    {q : Nat → Except Fault (Frame × Nat)} (h : Follows b p q) (marker : Marker) :
    Follows b (parseBody p marker) (readBody b q marker) := by
  refine (readLine_follows hb).bind fun line => ?_
  cases marker with
  | simple => exact .of_line fun s _ => .pure (Frame.simple s)
  | error => exact .of_line fun s _ => .pure (Frame.error s)
  | integer => exact .of_line fun n _ => .pure (Frame.integer n)
  | null => exact .pure Frame.null
  | bulk =>
    refine .of_line fun n? hn => ?_
    cases n? with
    | none => exact .pure Frame.nullBulk
    | some n =>
      have hdata := readSized_follows hb (lt_of_readLength hn)
      exact hdata.bind fun data => .pure (Frame.bulk data)
  | bulkError =>
    refine .of_line fun n? hn => ?_
    cases n? with
    | none => exact .pure Frame.null
    | some n =>
      have hdata := readSized_follows hb (lt_of_readLength hn)
      exact hdata.bind fun data => .of_line fun s _ => .pure (Frame.error s)
  | array =>
    refine .of_line fun n? _ => ?_
    cases n? with
    | none => exact .pure Frame.nullArray
    | some n => exact (readAll_follows h n).bind fun fs => .pure (Frame.array fs)

/-- By induction on the depth that is read to, the same for both. -/
theorem readWithin_follows (depth : Nat) : Follows b (parseWithin depth) (readWithin b depth) := by
  induction depth with
  | zero => exact fun _ _ => .inr ⟨.incomplete, rfl, rfl⟩
  | succ depth ih =>
    intro i hi
    unfold readWithin readByte
    by_cases hend : b.length ≤ i
    · rw [if_pos hend, List.drop_eq_nil_of_le hend]
      exact .inr ⟨.incomplete, rfl, rfl⟩
    · have hlt : i < b.length := Nat.lt_of_not_le hend
      rw [if_neg hend, List.getElem?_eq_getElem hlt, List.drop_eq_getElem_cons hlt]
      simp only [plus_eq_ok (show i + 1 < _ by omega)]
      exact Follows.of_line (fun marker _ => readBody_follows hb ih marker) (i + 1) hlt

end
end InPlace

/-- A frame is read, and so many bytes with it, exactly if these bytes denote it; there is one such
frame and one such number at most, and the number is within the buffer. A buffer takes half of the
address space at most; in any that does not take all of that half, reading in place comes to the
same frame and number or to the same error, and never to an index or a slice out of bounds. -/
theorem read_iff_denoted (b : Bytes) :
    (∀ f after, parse b = .ok (f, after) → ∃ n ≤ b.length, after = b.drop n) ∧
      (∀ f, ∀ n ≤ b.length, parse b = .ok (f, b.drop n) ↔ Denotes (b.take n) f) ∧
      (∀ f g, ∀ m ≤ b.length, ∀ n ≤ b.length,
        Denotes (b.take m) f → Denotes (b.take n) g → f = g ∧ m = n) ∧
      (b.length + 1 < Nat.pow 2 63 →
        (∃ f, ∃ n ≤ b.length, parse b = .ok (f, b.drop n) ∧ InPlace.readFrame b = .ok (f, n)) ∨
          ∃ cause, parse b = .error cause ∧ InPlace.readFrame b = .error (.unread cause)) := by
  refine ⟨fun f after h => ?_, fun f n hn => ?_, fun f g m hm n hn hf hg => ?_, fun hb => ?_⟩
  · obtain ⟨p, rfl, -⟩ := parse_eq_ok_iff.1 h
    exact ⟨p.length, by simp, List.drop_left.symm⟩
  · rw [parse_eq_ok_iff]
    constructor
    · rintro ⟨p, hp, hf⟩
      have htake : b.take n = p := by
        refine (List.append_left_inj (b.drop n)).1 ?_
        rw [List.take_append_drop, ← hp]
      rwa [htake]
    · intro hf
      exact ⟨b.take n, (List.take_append_drop n b).symm, hf⟩
  · have hwhole : b.take m ++ b.drop m = b.take n ++ b.drop n := by
      rw [List.take_append_drop, List.take_append_drop]
    obtain ⟨htake, hfg⟩ := eq_of_denotes hf hg hwhole
    have hlength := congrArg List.length htake
    rw [List.length_take_of_le hm, List.length_take_of_le hn] at hlength
    exact ⟨hfg, hlength⟩
  · have hfollows := InPlace.readWithin_follows hb b.length 0 (Nat.zero_le _)
    rw [List.drop_zero] at hfollows
    rcases hfollows with ⟨f, n, hn, hread, hplace⟩ | hfailed
    · exact .inl ⟨f, n, hn, hread, hplace⟩
    · exact .inr hfailed

/-- Signs and leading zeros in the numerals, a line break in the data, and the largest length there
is, at the end of its buffer. -/
theorem read_iff_denoted_of_signed_lengths :
    let b := Bytes.ofString "*+2\r\n$02\r\n\r\n\r\n:-007\r\n*"
    let f := Frame.array [.bulk Bytes.crlf, .integer (-7)]
    let far := Bytes.ofString "$9223372036854775807\r\n"
    b.length + 1 < Nat.pow 2 63 ∧ far.length + 1 < Nat.pow 2 63 ∧ Denotes (b.take 21) f ∧
      InPlace.readFrame b = .ok (f, 21) ∧ InPlace.readFrame far = .error (.unread .incomplete) := by
  intro b f far
  have hb : b.length + 1 < Nat.pow 2 63 := by decide
  have hfar : far.length + 1 < Nat.pow 2 63 := by decide
  have hread : parse b = .ok (f, b.drop 21) := rfl
  have hmissing : parse far = .error .incomplete := rfl
  obtain ⟨-, hdenotes, -, hplace⟩ := read_iff_denoted b
  obtain ⟨-, -, -, hplace'⟩ := read_iff_denoted far
  refine ⟨hb, hfar, (hdenotes f 21 (by decide)).1 hread, ?_, ?_⟩
  · rcases hplace hb with ⟨g, n, hn, hread', hplace⟩ | ⟨cause, hfailed, -⟩
    · obtain ⟨hfg, hdrop⟩ := Prod.mk.inj (Except.ok.inj (hread.symm.trans hread'))
      have hlength := congrArg List.length hdrop
      rw [List.length_drop, List.length_drop, show b.length = 22 from rfl] at hlength
      rw [show b.length = 22 from rfl] at hn
      rw [hplace, ← hfg, show n = 21 by omega]
    · cases hread.symm.trans hfailed
  · rcases hplace' hfar with ⟨_, _, _, hread', -⟩ | ⟨cause, hfailed, hplace'⟩
    · cases hmissing.symm.trans hread'
    · rw [hplace', ← Except.error.inj (hmissing.symm.trans hfailed)]

end RespStore.Frame
