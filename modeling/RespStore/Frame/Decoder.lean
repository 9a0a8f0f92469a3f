import RespStore.Frame.Parse
import RespStore.Result

/-! Frames out of a byte stream: a buffer of received bytes and a bound on its size. -/
namespace RespStore.Frame

theorem eq_of_splitLine? {b line after : Bytes} (h : splitLine? b = some (line, after)) :
    b = line ++ Bytes.crlf ++ after := by
  induction b using splitLine?.induct generalizing line after with
  | case1 => simp [splitLine?] at h
  | case2 => simp [splitLine?] at h
  | case3 a b rest hab =>
    obtain ⟨rfl, rfl⟩ := hab
    simp only [splitLine?, and_self, if_true, Option.some.injEq, Prod.mk.injEq] at h
    obtain ⟨rfl, rfl⟩ := h
    rfl
  | case4 a b rest hab ih =>
    rw [splitLine?, if_neg hab] at h
    obtain ⟨⟨l, r⟩, hs, he⟩ := Option.map_eq_some_iff.1 h
    cases he
    simpa using ih hs

private theorem length_of_takeLine {b line after : Bytes} (h : takeLine b = .ok (line, after)) :
    after.length < b.length := by
  unfold takeLine at h
  split at h
  · next split hs =>
    cases h
    rw [eq_of_splitLine? hs]
    simp [Bytes.crlf]
    omega
  · cases h

private theorem length_of_takeSized {n : Nat} {b data after : Bytes}
    (h : takeSized n b = .ok (data, after)) : after.length ≤ b.length := by
  unfold takeSized at h
  split at h
  · cases h
  · split at h
    · cases h
      simp
    · cases h

private theorem length_of_parseAll {one : Bytes → Except ParseError (Frame × Bytes)}
    (hone : ∀ {b f after}, one b = .ok (f, after) → after.length < b.length)
    {n : Nat} {b : Bytes} {fs : List Frame} {after : Bytes}
    (h : parseAll one n b = .ok (fs, after)) : after.length ≤ b.length := by
  induction n generalizing b fs after with
  | zero => cases h; exact Nat.le_refl _
  | succ n ih =>
    simp only [parseAll, bind_eq_ok_iff, Except.ok.injEq, Prod.mk.injEq] at h
    obtain ⟨⟨f, b'⟩, h1, ⟨fs', b''⟩, h2, -, rfl⟩ := h
    have hb : b'.length < b.length := hone h1
    have hb' : b''.length ≤ b'.length := ih h2
    exact Nat.le_trans hb' (Nat.le_of_lt hb)

private theorem length_of_parseBody {one : Bytes → Except ParseError (Frame × Bytes)}
    (hone : ∀ {b f after}, one b = .ok (f, after) → after.length < b.length)
    {marker : Marker} {b : Bytes} {f : Frame} {after : Bytes}
    (h : parseBody one marker b = .ok (f, after)) : after.length < b.length := by
  simp only [parseBody, bind_eq_ok_iff] at h
  obtain ⟨⟨line, rest⟩, hline, h⟩ := h
  refine Nat.lt_of_le_of_lt ?_ (length_of_takeLine hline)
  cases marker with
  | simple | error | integer =>
    obtain ⟨_, _, h⟩ := bind_eq_ok_iff.1 h
    cases h
    exact Nat.le_refl _
  | null =>
    cases h
    exact Nat.le_refl _
  | bulk | bulkError | array =>
    obtain ⟨n?, _, h⟩ := bind_eq_ok_iff.1 h
    cases n? with
    | none =>
      cases h
      exact Nat.le_refl _
    | some n =>
      obtain ⟨⟨data, b'⟩, hdata, h⟩ := bind_eq_ok_iff.1 h
      first
      | cases h
        first
        | exact length_of_takeSized hdata
        | exact length_of_parseAll hone hdata
      | obtain ⟨_, _, h⟩ := bind_eq_ok_iff.1 h
        cases h
        exact length_of_takeSized hdata

private theorem length_of_parseWithin {depth : Nat} {b : Bytes} {f : Frame} {after : Bytes}
    (h : parseWithin depth b = .ok (f, after)) : after.length < b.length := by
  induction depth generalizing b f after with
  | zero => cases h
  | succ depth ih =>
    cases b with
    | nil => cases h
    | cons x rest =>
      obtain ⟨_, _, h⟩ := bind_eq_ok_iff.1 h
      exact Nat.lt_succ_of_lt (length_of_parseBody ih h)

theorem length_lt_of_parse {b : Bytes} {f : Frame} {after : Bytes}
    (h : parse b = .ok (f, after)) : after.length < b.length :=
  length_of_parseWithin h

def defaultMaxBuffer : Nat := 512 * 1024 * 1024

inductive StreamError where
  | oversized
  | malformed (cause : ParseError)
  deriving DecidableEq, Repr

def StreamError.message : StreamError → String
  | .oversized => "ERR Protocol error: frame size exceeds limit"
  | .malformed cause => cause.message

/-- The next frame in a buffer and what it leaves, or nothing until more bytes come. -/
def next? (maxBuffer : Nat) (buffer : Bytes) : Except StreamError (Option (Frame × Bytes)) :=
  if maxBuffer < buffer.length then .error .oversized
  else
    match parse buffer with
    | .ok found => .ok (some found)
    | .error .incomplete => .ok none
    | .error cause => .error (.malformed cause)

theorem length_lt_of_next? {maxBuffer : Nat} {buffer : Bytes} {f : Frame} {after : Bytes}
    (h : next? maxBuffer buffer = .ok (some (f, after))) : after.length < buffer.length := by
  unfold next? at h
  split at h
  · cases h
  · split at h
    · next hp =>
      cases h
      exact length_lt_of_parse hp
    · cases h
    · cases h

/-- What a buffer gave: its frames in order, the error that ended it if there was one, and the
bytes that are left. -/
structure Decoded where
  frames : List Frame
  failure : Option StreamError
  left : Bytes

/-- Takes frames off a buffer until none is complete or one is malformed. -/
def decode (maxBuffer : Nat) (buffer : Bytes) : Decoded :=
  match _h : next? maxBuffer buffer with
  | .error cause => ⟨[], some cause, buffer⟩
  | .ok none => ⟨[], none, buffer⟩
  | .ok (some (frame, after)) =>
    let rest := decode maxBuffer after
    { rest with frames := frame :: rest.frames }
termination_by buffer.length
decreasing_by exact length_lt_of_next? _h

/-- Receives chunks one by one, decoding after each, until one fails. -/
def decodeChunks (maxBuffer : Nat) (buffer : Bytes) : List Bytes → List Decoded
  | [] => []
  | chunk :: rest =>
    let step := decode maxBuffer (buffer ++ chunk)
    step :: if step.failure.isSome then [] else decodeChunks maxBuffer step.left rest

end RespStore.Frame
