import RespStore.Proofs.Frame.Line

/-! A stream is read the same however it is cut into chunks: what some bytes settle, more bytes do
not unsettle. -/
namespace RespStore.Frame

/-- What has been read, and more bytes after those that were left. -/
def readBefore {α : Type} (more : Bytes) (r : Except ParseError (α × Bytes)) :
    Except ParseError (α × Bytes) :=
  r.map fun (a, after) => (a, after ++ more)

/-- Where `p` is not short of bytes, `q` reads the same with more bytes at the end. -/
def Settles {α : Type} (p q : Bytes → Except ParseError (α × Bytes)) : Prop :=
  ∀ b, p b ≠ .error .incomplete → ∀ more, q (b ++ more) = readBefore more (p b)

namespace Settles

variable {α β : Type}

theorem pure (a : α) : Settles (fun b => .ok (a, b)) fun b => .ok (a, b) := fun _ _ _ => rfl

theorem fail (e : ParseError) :
    Settles (α := α) (fun _ => .error e) fun _ => .error e := fun _ _ _ => rfl

theorem of_line (r : Except ParseError α) {next next' : α → Bytes → Except ParseError (β × Bytes)}
    (h : ∀ a, Settles (next a) (next' a)) :
    Settles (fun b => r >>= fun a => next a b) fun b => r >>= fun a => next' a b := by
  cases r with
  | error e => exact fail e
  | ok a => exact h a

theorem bind {p p' : Bytes → Except ParseError (α × Bytes)}
    {next next' : α × Bytes → Except ParseError (β × Bytes)} (hp : Settles p p')
    (hnext : ∀ a, Settles (fun b => next (a, b)) fun b => next' (a, b)) :
    Settles (fun b => p b >>= next) fun b => p' b >>= next' := by
  intro b hb more
  change p b >>= next ≠ .error .incomplete at hb
  change p' (b ++ more) >>= next' = readBefore more (p b >>= next)
  have hread : p b ≠ .error .incomplete := by
    intro hmissing
    rw [hmissing] at hb
    exact hb rfl
  rw [hp b hread more]
  cases hfound : p b with
  | error e => rfl
  | ok found =>
    rw [hfound] at hb
    exact hnext found.1 found.2 hb more

end Settles

theorem takeLine_settles : Settles takeLine takeLine := by
  intro b hb more
  cases hread : takeLine b with
  | error e =>
    unfold takeLine at hread
    split at hread
    · cases hread
    · cases hread
      rename_i hnone
      exact absurd (by rw [takeLine, hnone]) hb
  | ok found =>
    obtain ⟨line, after⟩ := found
    obtain ⟨rfl, hline⟩ := takeLine_eq_ok_iff.1 hread
    exact takeLine_eq_ok_iff.2 ⟨List.append_assoc _ _ _, hline⟩

theorem takeSized_settles (n : Nat) : Settles (takeSized n) (takeSized n) := by
  intro b hb more
  by_cases hlength : b.length < n + 2
  · exact absurd (if_pos hlength) hb
  · have hlength' : ¬ (b ++ more).length < n + 2 := by
      rw [List.length_append]
      omega
    have hdrop : ((b ++ more).drop n).take 2 = (b.drop n).take 2 := by
      rw [List.drop_append_of_le_length (by omega), List.take_append_of_le_length]
      rw [List.length_drop]
      omega
    unfold takeSized
    rw [if_neg hlength, if_neg hlength', hdrop]
    split
    · rw [List.take_append_of_le_length (by omega), List.drop_append_of_le_length (by omega)]
      rfl
    · rfl

section
variable {one one' : Bytes → Except ParseError (Frame × Bytes)}

theorem parseAll_settles (h : Settles one one') (n : Nat) :
    Settles (parseAll one n) (parseAll one' n) := by
  induction n with
  | zero => exact .pure []
  | succ n ih => exact h.bind fun f => ih.bind fun fs => .pure (f :: fs)

theorem parseBody_settles (h : Settles one one') (marker : Marker) :
    Settles (parseBody one marker) (parseBody one' marker) := by
  refine takeLine_settles.bind fun line => ?_
  cases marker with
  | simple => exact .of_line _ fun s => .pure (Frame.simple s)
  | error => exact .of_line _ fun s => .pure (Frame.error s)
  | integer => exact .of_line _ fun n => .pure (Frame.integer n)
  | null => exact .pure Frame.null
  | bulk =>
    refine .of_line _ fun n? => ?_
    cases n? with
    | none => exact .pure Frame.nullBulk
    | some n => exact (takeSized_settles n).bind fun data => .pure (Frame.bulk data)
  | bulkError =>
    refine .of_line _ fun n? => ?_
    cases n? with
    | none => exact .pure Frame.null
    | some n => exact (takeSized_settles n).bind fun data => .of_line _ fun s => .pure (Frame.error s)
  | array =>
    refine .of_line _ fun n? => ?_
    cases n? with
    | none => exact .pure Frame.nullArray
    | some n => exact (parseAll_settles h n).bind fun fs => .pure (Frame.array fs)

end

/-- More bytes may also nest deeper. By induction on the depth that the fewer bytes are read to. -/
theorem parseWithin_settles {depth depth' : Nat} (h : depth ≤ depth') :
    Settles (parseWithin depth) (parseWithin depth') := by
  induction depth generalizing depth' with
  | zero => exact fun b hb => absurd rfl hb
  | succ depth ih =>
    obtain ⟨deeper, rfl⟩ : ∃ n, depth' = n + 1 := ⟨depth' - 1, by omega⟩
    intro b hb more
    cases b with
    | nil => exact absurd rfl hb
    | cons x rest =>
      exact Settles.of_line (Marker.ofByte x)
        (fun marker => parseBody_settles (ih (by omega)) marker) rest hb more

/-- A frame or an error that is read for good is read the same when more bytes follow. -/
theorem parse_append {b : Bytes} (h : parse b ≠ .error .incomplete) (more : Bytes) :
    parse (b ++ more) = readBefore more (parse b) := by
  have hdepth : b.length ≤ (b ++ more).length := by
    rw [List.length_append]
    omega
  exact parseWithin_settles hdepth b h more

variable {maxBuffer : Nat} {b more : Bytes}

theorem next?_append {found? : Except StreamError (Option (Frame × Bytes))}
    (h : next? maxBuffer b = found?) (hfound : found? ≠ .ok none)
    (hmax : (b ++ more).length ≤ maxBuffer) : next? maxBuffer (b ++ more) =
      found?.map (Option.map fun (f, after) => (f, after ++ more)) := by
  have hb : b.length ≤ maxBuffer := by
    rw [List.length_append] at hmax
    omega
  subst h
  unfold next? at hfound ⊢
  rw [if_neg (Nat.not_lt.2 hb)] at hfound ⊢
  rw [if_neg (Nat.not_lt.2 hmax)]
  have hread : parse b ≠ .error .incomplete := by
    intro hmissing
    rw [hmissing] at hfound
    exact hfound rfl
  rw [parse_append hread]
  cases hparsed : parse b with
  | ok found => rfl
  | error cause =>
    cases cause with
    | incomplete => exact absurd hparsed hread
    | _ => rfl

theorem decode_of_error {cause : StreamError} (h : next? maxBuffer b = .error cause) :
    decode maxBuffer b = ⟨[], some cause, b⟩ := by
  rw [decode]
  split <;> simp_all

theorem decode_of_none (h : next? maxBuffer b = .ok none) :
    decode maxBuffer b = ⟨[], none, b⟩ := by
  rw [decode]
  split <;> simp_all

theorem decode_of_some {f : Frame} {after : Bytes} (h : next? maxBuffer b = .ok (some (f, after))) :
    decode maxBuffer b =
      { decode maxBuffer after with frames := f :: (decode maxBuffer after).frames } := by
  rw [decode]
  split <;> simp_all

/-- A decoder that has not failed waits: what it leaves is short of bytes, and no longer than what
it had. -/
theorem decode_waits (h : (decode maxBuffer b).failure = none) :
    next? maxBuffer (decode maxBuffer b).left = .ok none ∧
      (decode maxBuffer b).left.length ≤ b.length := by
  induction b using decode.induct maxBuffer with
  | case1 b cause hnext =>
    rw [decode_of_error hnext] at h
    cases h
  | case2 b hnext =>
    rw [decode_of_none hnext]
    exact ⟨hnext, Nat.le_refl _⟩
  | case3 b f after hnext ih =>
    rw [decode_of_some hnext] at h ⊢
    obtain ⟨hleft, hlength⟩ := ih h
    exact ⟨hleft, Nat.le_trans hlength (Nat.le_of_lt (length_lt_of_next? hnext))⟩

theorem length_append_le {after : Bytes} {f : Frame} (hmax : (b ++ more).length ≤ maxBuffer)
    (hnext : next? maxBuffer b = .ok (some (f, after))) : (after ++ more).length ≤ maxBuffer := by
  have hlt := length_lt_of_next? hnext
  rw [List.length_append] at hmax ⊢
  omega

/-- A decoder that waits goes on, when more bytes come, as if it had had them from the start. -/
theorem decode_append_of_waiting (hmax : (b ++ more).length ≤ maxBuffer)
    (h : (decode maxBuffer b).failure = none) :
    let next := decode maxBuffer ((decode maxBuffer b).left ++ more)
    decode maxBuffer (b ++ more) =
      { next with frames := (decode maxBuffer b).frames ++ next.frames } := by
  induction b using decode.induct maxBuffer with
  | case1 b cause hnext =>
    rw [decode_of_error hnext] at h
    cases h
  | case2 b hnext =>
    rw [decode_of_none hnext]
    rfl
  | case3 b f after hnext ih =>
    have hnext' := next?_append hnext nofun hmax
    rw [decode_of_some hnext] at h ⊢
    rw [decode_of_some hnext', ih (length_append_le hmax hnext) h]
    rfl

theorem decode_append_of_failed {cause : StreamError} (hmax : (b ++ more).length ≤ maxBuffer)
    (h : (decode maxBuffer b).failure = some cause) :
    (decode maxBuffer (b ++ more)).frames = (decode maxBuffer b).frames ∧
      (decode maxBuffer (b ++ more)).failure = some cause := by
  induction b using decode.induct maxBuffer with
  | case1 b cause' hnext =>
    have hnext' := next?_append hnext nofun hmax
    rw [decode_of_error hnext] at h ⊢
    rw [decode_of_error hnext']
    exact ⟨rfl, h⟩
  | case2 b hnext =>
    rw [decode_of_none hnext] at h
    cases h
  | case3 b f after hnext ih =>
    have hnext' := next?_append hnext nofun hmax
    rw [decode_of_some hnext] at h ⊢
    rw [decode_of_some hnext']
    obtain ⟨hframes, hfailure⟩ := ih (length_append_le hmax hnext) h
    exact ⟨congrArg (f :: ·) hframes, hfailure⟩

/-- How decoding ended: with an error, or with bytes left that wait for more. -/
def Decoded.ending (d : Decoded) : Except StreamError Bytes :=
  match d.failure with
  | some cause => .error cause
  | none => .ok d.left

theorem Decoded.ending_of_failed {d : Decoded} {cause : StreamError} (h : d.failure = some cause) :
    d.ending = .error cause := by
  rw [ending, h]

theorem Decoded.ending_of_waiting {d : Decoded} (h : d.failure = none) : d.ending = .ok d.left := by
  rw [ending, h]

/-- All frames that the steps of a decoder gave, in order, and how the last step ended. Before the
first one `buffer` is left. -/
def received (buffer : Bytes) (steps : List Decoded) : List Frame × Except StreamError Bytes :=
  (steps.flatMap (·.frames), (steps.getLast?.map Decoded.ending).getD (.ok buffer))

theorem received_singleton (buffer : Bytes) (d : Decoded) :
    received buffer [d] = (d.frames, d.ending) := by
  simp [received]

theorem received_cons {buffer : Bytes} {d : Decoded} (steps : List Decoded)
    (h : d.failure = none) : received buffer (d :: steps) =
      (d.frames ++ (received d.left steps).1, (received d.left steps).2) := by
  cases hlast : steps.getLast? with
  | none => simp [received, List.getLast?_cons, hlast, d.ending_of_waiting h]
  | some last => simp [received, List.getLast?_cons, hlast]

/-- Chunk by chunk a decoder gives what it gives for all bytes at once. By induction on the chunks;
between them what is left is short of bytes. -/
theorem received_decodeChunks {buffer : Bytes} {chunks : List Bytes}
    (hbuffer : next? maxBuffer buffer = .ok none)
    (hmax : (buffer ++ chunks.flatten).length ≤ maxBuffer) :
    received buffer (decodeChunks maxBuffer buffer chunks) =
      received buffer [decode maxBuffer (buffer ++ chunks.flatten)] := by
  induction chunks generalizing buffer with
  | nil =>
    rw [List.flatten_nil, List.append_nil, decode_of_none hbuffer]
    rfl
  | cons chunk rest ih =>
    rw [List.flatten_cons, ← List.append_assoc] at hmax ⊢
    unfold decodeChunks
    generalize hstep : decode maxBuffer (buffer ++ chunk) = step
    cases hfailure : step.failure with
    | some cause =>
      rw [← hstep] at hfailure
      obtain ⟨hframes, hfailure'⟩ := decode_append_of_failed hmax hfailure
      rw [hstep] at hframes hfailure
      simp only [hfailure, Option.isSome_some, if_true]
      rw [received_singleton, received_singleton, hframes, Decoded.ending_of_failed hfailure,
        Decoded.ending_of_failed hfailure']
    | none =>
      rw [← hstep] at hfailure
      obtain ⟨hleft, hlength⟩ := decode_waits hfailure
      have hwhole := decode_append_of_waiting hmax hfailure
      rw [hstep] at hleft hlength hwhole hfailure
      have hmax' : (step.left ++ rest.flatten).length ≤ maxBuffer := by
        rw [List.length_append] at hmax ⊢
        omega
      simp only [hfailure, Option.isSome_none, Bool.false_eq_true, if_false]
      rw [received_cons _ hfailure, ih hleft hmax', received_singleton, received_singleton, hwhole]
      rfl

/-- However bytes are cut into chunks, decoding gives the same frames and ends in the same way: with
the same error, or with the same bytes left. A frame or an error that is read from some bytes, not
for want of more, is read the same when more bytes follow. -/
theorem decoding_independent_of_cuts {b : Bytes} {maxBuffer : Nat} (hmax : b.length ≤ maxBuffer)
    {chunks chunks' : List Bytes} (h : chunks.flatten = b) (h' : chunks'.flatten = b) :
    received [] (decodeChunks maxBuffer [] chunks) =
        received [] (decodeChunks maxBuffer [] chunks') ∧
      (∀ p f after more, parse p = .ok (f, after) → parse (p ++ more) = .ok (f, after ++ more)) ∧
      ∀ p cause more, parse p = .error cause → cause ≠ .incomplete →
        parse (p ++ more) = .error cause := by
  subst h
  have hstart : next? maxBuffer [] = .ok none := if_neg (Nat.not_lt_zero maxBuffer)
  refine ⟨?_, fun p f after more hread => ?_, fun p cause more hread hcause => ?_⟩
  · rw [received_decodeChunks hstart hmax, received_decodeChunks hstart (h' ▸ hmax), h']
  · rw [parse_append (by rw [hread]; nofun), hread]
    rfl
  · rw [parse_append (by rw [hread]; exact fun heq => hcause (Except.error.inj heq)), hread]
    rfl

/-- A stream cut at every byte, through line ends and a line break within its data. -/
theorem decoding_byte_by_byte :
    let b := Bytes.ofString "*2\r\n$4\r\na\r\nb\r\n:-7\r\n+x\r"
    let chunks := b.map fun x => [x]
    b.length ≤ 64 ∧ [b].flatten = b ∧ chunks.flatten = b ∧
      received [] (decodeChunks 64 [] chunks) =
        ([.array [.bulk (Bytes.ofString "a\r\nb"), .integer (-7)]], .ok (Bytes.ofString "+x\r")) := by
  intro b chunks
  have hb : b.length ≤ 64 := by decide
  have hwhole : [b].flatten = b := List.append_nil b
  have hcut : chunks.flatten = b := by decide
  have hfirst : next? 64 b = .ok (some (.array [.bulk (Bytes.ofString "a\r\nb"), .integer (-7)],
      Bytes.ofString "+x\r")) := rfl
  have hrest : next? 64 (Bytes.ofString "+x\r") = .ok none := rfl
  refine ⟨hb, hwhole, hcut, ?_⟩
  rw [(decoding_independent_of_cuts hb hcut hwhole).1]
  have hdecoded : decode 64 ([] ++ b) = _ := decode_of_some hfirst
  rw [decode_of_none hrest] at hdecoded
  rw [decodeChunks, hdecoded]
  rfl

end RespStore.Frame
