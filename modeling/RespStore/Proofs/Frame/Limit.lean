import Mathlib.Algebra.Order.Ring.Nat
import RespStore.Proofs.Frame.Chunks
import RespStore.Proofs.Frame.Grammar

/-! What the bound of a decoder bounds: the buffer, and not only the frames in it. -/
namespace RespStore.Frame

/-- Of `n` bytes of frames that have given sizes, how many frames are whole. -/
def wholeIn : (sizes : List Nat) → (n : Nat) → Nat
  | [], _ => 0
  | size :: sizes, n => if size ≤ n then wholeIn sizes (n - size) + 1 else 0

/-- Of `n` bytes of frames that have given sizes, how many come after the last whole frame. -/
def partIn : (sizes : List Nat) → (n : Nat) → Nat
  | [], n => n
  | size :: sizes, n => if size ≤ n then partIn sizes (n - size) else n

/-- Whether each of the chunks that come after `arrived` bytes has room in a buffer, beside what has
come of a frame that is not whole. -/
def ChunksFit (maxBuffer : Nat) (sizes : List Nat) : (arrived : Nat) → List Bytes → Prop
  | _, [] => True
  | arrived, chunk :: rest =>
    partIn sizes arrived + chunk.length ≤ maxBuffer ∧
      ChunksFit maxBuffer sizes (arrived + chunk.length) rest

def stream (sent : List (Bytes × Frame)) : Bytes := sent.flatMap (·.1)

def sizes (sent : List (Bytes × Frame)) : List Nat := sent.map (·.1.length)

variable {sent done left : List (Bytes × Frame)} {b p more : Bytes} {maxBuffer n : Nat}

@[simp] theorem stream_cons (e : Bytes × Frame) (sent : List (Bytes × Frame)) :
    stream (e :: sent) = e.1 ++ stream sent := rfl

@[simp] theorem stream_append (done left : List (Bytes × Frame)) :
    stream (done ++ left) = stream done ++ stream left := List.flatMap_append

@[simp] theorem sizes_append (done left : List (Bytes × Frame)) :
    sizes (done ++ left) = sizes done ++ sizes left := List.map_append

theorem length_stream (sent : List (Bytes × Frame)) : (stream sent).length = (sizes sent).sum := by
  induction sent with
  | nil => rfl
  | cons e rest ih => simp [sizes, ih]

theorem wholeIn_append (done left : List Nat) (n : Nat) :
    wholeIn (done ++ left) (done.sum + n) = done.length + wholeIn left n := by
  induction done with
  | nil => simp
  | cons size rest ih =>
    have hrest : size + rest.sum + n - size = rest.sum + n := by omega
    have hsize : size ≤ size + rest.sum + n := by omega
    simp only [List.cons_append, List.sum_cons, wholeIn, hsize, hrest, ih, if_true,
      List.length_cons]
    omega

theorem partIn_append (done left : List Nat) (n : Nat) :
    partIn (done ++ left) (done.sum + n) = partIn left n := by
  induction done with
  | nil => simp
  | cons size rest ih =>
    have hrest : size + rest.sum + n - size = rest.sum + n := by omega
    have hsize : size ≤ size + rest.sum + n := by omega
    simp only [List.cons_append, List.sum_cons, partIn, hsize, hrest, ih, if_true]

theorem chunksFit_append (done left : List Nat) (n : Nat) (chunks : List Bytes) :
    ChunksFit maxBuffer (done ++ left) (done.sum + n) chunks ↔
      ChunksFit maxBuffer left n chunks := by
  induction chunks generalizing n with
  | nil => rfl
  | cons chunk rest ih =>
    simp only [ChunksFit, partIn_append, Nat.add_assoc, ih]

theorem chunksFit_at {sizes : List Nat} {before after : List Bytes} {chunk : Bytes}
    (h : ChunksFit maxBuffer sizes n (before ++ chunk :: after)) :
    partIn sizes (n + before.flatten.length) + chunk.length ≤ maxBuffer := by
  induction before generalizing n with
  | nil => exact h.1
  | cons first rest ih =>
    rw [List.flatten_cons, List.length_append, ← Nat.add_assoc]
    exact ih h.2

/-- What a buffer holds when no frame in it is whole: nothing, or the first part of a frame. -/
inductive Pending : List (Bytes × Frame) → Bytes → Prop
  | nothing (sent : List (Bytes × Frame)) : Pending sent []
  | part {first : Bytes × Frame} {rest : List (Bytes × Frame)} {p more : Bytes}
      (hfirst : first.1 = p ++ more) (hmore : more ≠ []) : Pending (first :: rest) p

theorem Denotes.ne_nil {f : Frame} (h : Denotes b f) : b ≠ [] := by
  cases h <;> simp

theorem Pending.counts (hsent : ∀ e ∈ sent, Denotes e.1 e.2) (h : Pending sent p) :
    wholeIn (sizes sent) p.length = 0 ∧ partIn (sizes sent) p.length = p.length := by
  cases h with
  | nothing =>
    cases sent with
    | nil => exact ⟨rfl, rfl⟩
    | cons e rest =>
      have he := List.length_pos_iff.2 (hsent e List.mem_cons_self).ne_nil
      have hshort : ¬ e.1.length ≤ 0 := by omega
      simp [sizes, wholeIn, partIn, hshort]
  | @part first rest _ more hfirst hmore =>
    have hmore := List.length_pos_iff.2 hmore
    have hshort : ¬ first.1.length ≤ p.length := by
      rw [hfirst, List.length_append]
      omega
    simp [sizes, wholeIn, partIn, hshort]

/-- What is there of a frame that is not whole is short of bytes. -/
theorem parse_of_part {f : Frame} (h : Denotes (p ++ more) f) (hmore : more ≠ []) :
    parse p = .error .incomplete := by
  apply Classical.byContradiction
  intro hread
  have hwhole : parse (p ++ more) = .ok (f, []) :=
    parse_eq_ok_iff.2 ⟨p ++ more, (List.append_nil _).symm, h⟩
  rw [parse_append hread] at hwhole
  obtain ⟨⟨g, after⟩, -, hg⟩ := map_eq_ok_iff.1 hwhole
  have hnil : after ++ more = [] := (Prod.mk.inj hg).2
  exact hmore (List.append_eq_nil_iff.1 hnil).2

theorem next?_of_pending (hsent : ∀ e ∈ sent, Denotes e.1 e.2) (h : Pending sent p)
    (hmax : p.length ≤ maxBuffer) : next? maxBuffer p = .ok none := by
  have hread : parse p = .error .incomplete := by
    cases h with
    | nothing => rfl
    | @part first rest _ more hfirst hmore =>
      have hdenotes := hsent first List.mem_cons_self
      rw [hfirst] at hdenotes
      exact parse_of_part hdenotes hmore
  rw [next?, if_neg (by omega), hread]

theorem decode_of_whole (hdone : ∀ e ∈ done, Denotes e.1 e.2) (hleft : ∀ e ∈ left, Denotes e.1 e.2)
    (h : Pending left p) (hmax : (stream done ++ p).length ≤ maxBuffer) :
    decode maxBuffer (stream done ++ p) = ⟨done.map (·.2), none, p⟩ := by
  induction done with
  | nil => exact decode_of_none (next?_of_pending hleft h hmax)
  | cons e rest ih =>
    rw [stream_cons, List.append_assoc] at hmax ⊢
    have hread : parse (e.1 ++ (stream rest ++ p)) = .ok (e.2, stream rest ++ p) :=
      parse_eq_ok_iff.2 ⟨e.1, rfl, hdone e List.mem_cons_self⟩
    have hnext : next? maxBuffer (e.1 ++ (stream rest ++ p)) =
        .ok (some (e.2, stream rest ++ p)) := by
      rw [next?, if_neg (by omega), hread]
    have hrest : (stream rest ++ p).length ≤ maxBuffer := by
      rw [List.length_append] at hmax
      omega
    rw [decode_of_some hnext, ih (fun e he => hdone e (List.mem_cons_of_mem _ he)) hrest]
    rfl

/-- The first bytes of a stream are some whole frames and the first part of another. -/
theorem exists_whole_and_part (h : b ++ more = stream sent) :
    ∃ done left p, sent = done ++ left ∧ b = stream done ++ p ∧ Pending left p := by
  induction sent generalizing b with
  | nil =>
    obtain ⟨rfl, -⟩ := List.append_eq_nil_iff.1 h
    exact ⟨[], [], [], rfl, rfl, .nothing []⟩
  | cons e rest ih =>
    rw [stream_cons] at h
    rcases List.append_eq_append_iff.1 h with ⟨part, hpart, -⟩ | ⟨after, rfl, hafter⟩
    · by_cases hwhole : part = []
      · subst hwhole
        rw [List.append_nil] at hpart
        exact ⟨[e], rest, [], rfl, by simp [stream, hpart], .nothing rest⟩
      · exact ⟨[], e :: rest, b, rfl, rfl, .part hpart hwhole⟩
    · obtain ⟨done, left, p, rfl, rfl, hp⟩ := ih hafter.symm
      exact ⟨e :: done, left, p, rfl, (List.append_assoc _ _ _).symm, hp⟩

theorem Pending.eq_nil (hsent : ∀ e ∈ sent, Denotes e.1 e.2) (h : Pending sent p)
    (hstream : p = stream sent) : p = [] ∧ sent = [] := by
  cases h with
  | nothing =>
    cases sent with
    | nil => exact ⟨rfl, rfl⟩
    | cons e rest =>
      have hnil := (List.append_eq_nil_iff.1 hstream.symm).1
      exact absurd hnil (hsent e List.mem_cons_self).ne_nil
  | @part first rest _ more hfirst hmore =>
    have hlength := congrArg List.length hstream
    have hmore := List.length_pos_iff.2 hmore
    simp only [stream_cons, hfirst, List.length_append] at hlength
    omega

section
variable {chunk : Bytes} {chunks rest : List Bytes}

theorem received_of_decoded {frames : List Frame} (rest : List Bytes)
    (h : decode maxBuffer (p ++ chunk) = ⟨frames, none, b⟩) :
    received p (decodeChunks maxBuffer p (chunk :: rest)) =
      (frames ++ (received b (decodeChunks maxBuffer b rest)).1,
        (received b (decodeChunks maxBuffer b rest)).2) := by
  simp only [decodeChunks, h]
  exact received_cons _ rfl

theorem received_of_oversized (h : maxBuffer < (p ++ chunk).length) :
    received p (decodeChunks maxBuffer p (chunk :: rest)) = ([], .error .oversized) := by
  have hdecode : decode maxBuffer (p ++ chunk) = ⟨[], some .oversized, p ++ chunk⟩ :=
    decode_of_error (if_pos h)
  rw [decodeChunks, hdecode]
  rfl

/-- All frames of a stream come through, or those that are whole before the first chunk for which
there is no room. By induction on the chunks; between them what is left is pending. -/
theorem received_of_sent (maxBuffer : Nat) (hsent : ∀ e ∈ sent, Denotes e.1 e.2)
    (hp : Pending sent p) (hstream : p ++ chunks.flatten = stream sent) :
    (ChunksFit maxBuffer (sizes sent) p.length chunks ∧
      received p (decodeChunks maxBuffer p chunks) = (sent.map (·.2), .ok [])) ∨
    ∃ before chunk after, chunks = before ++ chunk :: after ∧
      maxBuffer < partIn (sizes sent) (p.length + before.flatten.length) + chunk.length ∧
      received p (decodeChunks maxBuffer p chunks) =
        ((sent.map (·.2)).take (wholeIn (sizes sent) (p.length + before.flatten.length)),
          .error .oversized) := by
  induction chunks generalizing sent p with
  | nil =>
    rw [List.flatten_nil, List.append_nil] at hstream
    obtain ⟨rfl, rfl⟩ := hp.eq_nil hsent hstream
    exact .inl ⟨trivial, rfl⟩
  | cons chunk rest ih =>
    obtain ⟨hwhole, hpart⟩ := hp.counts hsent
    rw [List.flatten_cons, ← List.append_assoc] at hstream
    by_cases hroom : (p ++ chunk).length ≤ maxBuffer
    · obtain ⟨done, left, p', rfl, hb, hp'⟩ := exists_whole_and_part hstream
      obtain ⟨hdone, hleft⟩ := List.forall_mem_append.1 hsent
      have hdecode := decode_of_whole hdone hleft hp' (hb ▸ hroom)
      have hstep := received_of_decoded rest (hb ▸ hdecode)
      have hlength : p.length + chunk.length = (sizes done).sum + p'.length := by
        rw [← List.length_append, hb, List.length_append, length_stream]
      rw [hb, List.append_assoc, stream_append] at hstream
      rcases ih hleft hp' (List.append_cancel_left hstream) with
        ⟨hfit, hreceived⟩ | ⟨before, late, after, rfl, hlate, hreceived⟩
      · refine .inl ⟨⟨?_, ?_⟩, ?_⟩
        · rwa [hpart, ← List.length_append]
        · rw [hlength, sizes_append]
          exact (chunksFit_append _ _ _ _).2 hfit
        · rw [hstep, hreceived, List.map_append]
      · have harrived : p.length + (chunk :: before).flatten.length =
            (sizes done).sum + (p'.length + before.flatten.length) := by
          rw [List.flatten_cons, List.length_append]
          omega
        have hdone : (sizes done).length = (done.map (·.2)).length := by simp [sizes]
        refine .inr ⟨chunk :: before, late, after, rfl, ?_, ?_⟩
        · rwa [harrived, sizes_append, partIn_append]
        · rw [hstep, hreceived, harrived, sizes_append, wholeIn_append, List.map_append, hdone,
            List.take_length_add_append]
    · refine .inr ⟨[], chunk, rest, rfl, ?_, ?_⟩
      · rw [List.length_append] at hroom
        show maxBuffer < partIn (sizes sent) p.length + chunk.length
        omega
      · show _ = ((sent.map (·.2)).take (wholeIn (sizes sent) p.length), _)
        rw [hwhole, received_of_oversized (Nat.lt_of_not_le hroom)]
        rfl

end

section
variable {long : Bytes × Frame} {after : Bytes}

/-- Fewer bytes than a frame takes do not hold all of it: it is still to come, and with it those
frames before it that are not whole. -/
theorem exists_whole_before_long (h : b ++ after = stream (sent ++ [long]) ++ more)
    (hb : b.length < long.1.length) :
    ∃ done before p, sent = done ++ before ∧ b = stream done ++ p ∧
      Pending (before ++ [long]) p ∧ p ++ after = stream (before ++ [long]) ++ more := by
  have hlength : (stream (sent ++ [long])).length = (stream sent).length + long.1.length := by
    simp [stream]
  have hshort : b.length < (stream (sent ++ [long])).length := by omega
  rcases List.append_eq_append_iff.1 h with ⟨missing, hmissing, rfl⟩ | ⟨beyond, hbeyond, -⟩
  · obtain ⟨done, left, p, hsplit, rfl, hp⟩ := exists_whole_and_part hmissing.symm
    rcases List.eq_nil_or_concat left with rfl | ⟨before, last, rfl⟩
    · have hnil : p = [] := by cases hp; rfl
      rw [hsplit, hnil] at hshort
      simp at hshort
    · rw [List.concat_eq_append, ← List.append_assoc] at hsplit
      obtain ⟨rfl, hlast⟩ := List.append_inj' hsplit rfl
      obtain rfl := List.singleton_inj.1 hlast
      rw [List.append_assoc, stream_append, List.append_assoc] at hmissing
      refine ⟨done, before, p, rfl, rfl, List.concat_eq_append ▸ hp, ?_⟩
      rw [← List.append_assoc, ← List.append_cancel_left hmissing]
  · have hbeyond := congrArg List.length hbeyond
    rw [(stream (sent ++ [long])).length_append] at hbeyond
    omega

/-- By induction on the chunks: a buffer within the bound does not hold all of a frame past it. -/
theorem received_before_long {chunks : List Bytes} (hsent : ∀ e ∈ sent ++ [long], Denotes e.1 e.2)
    (hlong : maxBuffer < long.1.length)
    (hstream : p ++ chunks.flatten = stream (sent ++ [long]) ++ more) :
    (received p (decodeChunks maxBuffer p chunks)).1 <+: sent.map (·.2) := by
  induction chunks generalizing sent p with
  | nil => exact List.nil_prefix
  | cons chunk rest ih =>
    rw [List.flatten_cons, ← List.append_assoc] at hstream
    by_cases hroom : (p ++ chunk).length ≤ maxBuffer
    · obtain ⟨done, before, p', rfl, hb, hp', hrest⟩ :=
        exists_whole_before_long hstream (by omega)
      rw [List.append_assoc] at hsent
      obtain ⟨hdone, hleft⟩ := List.forall_mem_append.1 hsent
      have hdecode := decode_of_whole hdone hleft hp' (hb ▸ hroom)
      rw [received_of_decoded rest (hb ▸ hdecode), List.map_append]
      exact (List.prefix_append_right_inj _).2 (ih hleft hrest)
    · rw [received_of_oversized (Nat.lt_of_not_le hroom)]
      exact List.nil_prefix

end

/-- However a stream of frames is cut, all of them come through if and only if each chunk fits in
the buffer beside what is there of a frame that is not whole. If one does not fit, decoding ends
with the error for size, after the frames that were whole before it, however small the frames are. A
frame past the bound never comes through, whatever follows it, and none after it does. -/
theorem frames_received_iff_chunks_fit (maxBuffer : Nat) (hsent : ∀ e ∈ sent, Denotes e.1 e.2)
    {chunks : List Bytes} (hchunks : chunks.flatten = stream sent) :
    (received [] (decodeChunks maxBuffer [] chunks) = (sent.map (·.2), .ok []) ↔
        ChunksFit maxBuffer (sizes sent) 0 chunks) ∧
      (¬ ChunksFit maxBuffer (sizes sent) 0 chunks →
        ∃ before chunk after, chunks = before ++ chunk :: after ∧
          maxBuffer < partIn (sizes sent) before.flatten.length + chunk.length ∧
          received [] (decodeChunks maxBuffer [] chunks) =
            ((sent.map (·.2)).take (wholeIn (sizes sent) before.flatten.length),
              .error .oversized)) ∧
      ∀ (before : List (Bytes × Frame)) (long : Bytes × Frame) (more : Bytes) (cuts : List Bytes),
        (∀ e ∈ before ++ [long], Denotes e.1 e.2) → maxBuffer < long.1.length →
        cuts.flatten = stream before ++ long.1 ++ more →
        (received [] (decodeChunks maxBuffer [] cuts)).1 <+: before.map (·.2) := by
  have hstart : Pending sent [] := .nothing sent
  have houtcome := received_of_sent maxBuffer hsent hstart hchunks
  simp only [List.length_nil, Nat.zero_add] at houtcome
  refine ⟨⟨fun hall => ?_, fun hfit => ?_⟩, fun hover => ?_, fun before long more cuts => ?_⟩
  · rcases houtcome with ⟨hfit, -⟩ | ⟨_, _, _, -, -, hreceived⟩
    · exact hfit
    · rw [hall] at hreceived
      cases (Prod.mk.inj hreceived).2
  · rcases houtcome with ⟨-, hreceived⟩ | ⟨before, chunk, after, rfl, hlate, -⟩
    · exact hreceived
    · have hroom := chunksFit_at hfit
      rw [Nat.zero_add] at hroom
      omega
  · rcases houtcome with ⟨hfit, -⟩ | hlate
    · exact absurd hfit hover
    · exact hlate
  · intro hdenotes hlong hcuts
    have hstream : [] ++ cuts.flatten = stream (before ++ [long]) ++ more := by
      simpa [stream] using hcuts
    exact received_before_long hdenotes hlong hstream

/-- Two frames that together are past the bound come through when they are cut so that there is
room, and a frame past the bound does not. -/
theorem frames_received_cut_across :
    let ok : Bytes × Frame := (43 :: (Bytes.ofString "OK" ++ Bytes.crlf), .simple "OK")
    let long : Bytes × Frame := (43 :: (Bytes.ofString "LONG" ++ Bytes.crlf), .simple "LONG")
    let chunks := [Bytes.ofString "+OK\r\n+", Bytes.ofString "OK\r\n"]
    let cuts := [ok.1, long.1 ++ ok.1]
    (∀ e ∈ [ok, ok], Denotes e.1 e.2) ∧ chunks.flatten = stream [ok, ok] ∧
      received [] (decodeChunks 6 [] chunks) = ([.simple "OK", .simple "OK"], .ok []) ∧
      6 < long.1.length ∧ cuts.flatten = stream [ok] ++ long.1 ++ ok.1 ∧
      (received [] (decodeChunks 6 [] cuts)).1 <+: [.simple "OK"] := by
  intro ok long chunks cuts
  have hok : Denotes ok.1 ok.2 := .simple (isLine_of_not_mem (by decide))
  have hlong : Denotes long.1 long.2 := .simple (isLine_of_not_mem (by decide))
  have hsent : ∀ e ∈ [ok, ok], Denotes e.1 e.2 := by simp [hok]
  have hboth : ∀ e ∈ [ok] ++ [long], Denotes e.1 e.2 := by simp [hok, hlong]
  have hchunks : chunks.flatten = stream [ok, ok] := by decide
  have hfit : ChunksFit 6 (sizes [ok, ok]) 0 chunks := ⟨by decide, by decide, trivial⟩
  have hsize : 6 < long.1.length := by decide
  have hcuts : cuts.flatten = stream [ok] ++ long.1 ++ ok.1 := by decide
  obtain ⟨hall, -, hnever⟩ := frames_received_iff_chunks_fit 6 hsent hchunks
  exact ⟨hsent, hchunks, hall.2 hfit, hsize, hcuts, hnever [ok] long ok.1 cuts hboth hsize hcuts⟩

/-- Two frames of five bytes each come at once, and a bound of nine refuses both. -/
theorem not_all_frames_within_bound_received :
    ¬ ∀ (maxBuffer : Nat) (sent : List (Bytes × Frame)) (chunks : List Bytes),
      (∀ e ∈ sent, Denotes e.1 e.2) → (∀ e ∈ sent, e.1.length ≤ maxBuffer) →
      chunks.flatten = stream sent →
      received [] (decodeChunks maxBuffer [] chunks) = (sent.map (·.2), .ok []) := by
  intro h
  let ok : Bytes × Frame := (43 :: (Bytes.ofString "OK" ++ Bytes.crlf), .simple "OK")
  have hok : Denotes ok.1 ok.2 := .simple (isLine_of_not_mem (by decide))
  have hsent : ∀ e ∈ [ok, ok], Denotes e.1 e.2 := by simp [hok]
  have hall := h 9 [ok, ok] [ok.1 ++ ok.1] hsent (by decide) (by decide)
  rw [received_of_oversized (by decide)] at hall
  cases (Prod.mk.inj hall).2

end RespStore.Frame
