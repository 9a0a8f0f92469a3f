import RespStore.Glob.Search
import RespStore.Proofs.Frame.Chunks
import RespStore.Proofs.Serving

/-! What a client gets in reply does not depend on how its bytes are cut into chunks, or on how the
requests in them are served together, unless one of them never gets a reply. -/
namespace RespStore
open Engine (Ending)

namespace Connection

/-- The error that ends a stream: at bytes that are malformed, or after the last bytes if they are
short of a request. -/
def closingLine (d : Frame.Decoded) : Bytes :=
  match d.failure with
  | some cause => errorLine cause.message
  | none => if d.left = [] then [] else errorLine "bytes remaining on stream"

theorem flatten_pieces {α : Type} (sizes : List Nat) (items : List α) :
    (pieces sizes items).flatten = items := by
  induction sizes generalizing items with
  | nil => exact List.append_nil items
  | cons n sizes ih => rw [pieces, List.flatten_cons, ih, List.take_append_drop]

/-- The batches that the requests in a client's bytes come in, up to bytes that are malformed. -/
def batches (maxBuffer : Nat) (buffer : Bytes) : List Delivery → List (List Frame)
  | [] => []
  | d :: rest =>
    let decoded := Frame.decode maxBuffer (buffer ++ d.chunk)
    pieces d.sizes decoded.frames ++ match decoded.failure with
      | some _ => []
      | none => batches maxBuffer decoded.left rest

/-- Whatever the cut, the batches hold the requests that are read from all bytes at once. -/
theorem flatten_batches {maxBuffer : Nat} {buffer : Bytes}
    (hbuffer : Frame.next? maxBuffer buffer = .ok none) {deliveries : List Delivery}
    (hmax : (buffer ++ (deliveries.map (·.chunk)).flatten).length ≤ maxBuffer) :
    (batches maxBuffer buffer deliveries).flatten =
      (Frame.decode maxBuffer (buffer ++ (deliveries.map (·.chunk)).flatten)).frames := by
  induction deliveries generalizing buffer with
  | nil =>
    rw [List.map_nil, List.flatten_nil, List.append_nil, Frame.decode_of_none hbuffer]
    rfl
  | cons d rest ih =>
    rw [List.map_cons, List.flatten_cons, ← List.append_assoc] at hmax ⊢
    rw [batches, List.flatten_append, flatten_pieces]
    cases hfailure : (Frame.decode maxBuffer (buffer ++ d.chunk)).failure with
    | some cause =>
      rw [(Frame.decode_append_of_failed hmax hfailure).1]
      exact List.append_nil _
    | none =>
      obtain ⟨hleft, hlength⟩ := Frame.decode_waits hfailure
      rw [Frame.decode_append_of_waiting hmax hfailure]
      dsimp only
      rw [ih hleft (by rw [List.length_append] at hmax ⊢; omega)]

/-- What a connection has come to after its last bytes, beside a way to serve all that is in
them. -/
structure EndsAs (r : Bytes × Connection × Engine) (s : Bytes × Ending × Engine) : Prop where
  engine : r.2.2 = s.2.2
  stuck : r.2.1.phase = .stuck ↔ s.2.1 = .stuck
  written : r.1 ++ r.2.1.lastWords = s.1

theorem lastWords_of_reading {c : Connection} (hc : c.phase = .reading) :
    c.lastWords = closingLine ⟨[], none, c.buffer⟩ := by
  unfold lastWords closingLine
  by_cases hbuffer : c.buffer = []
  · rw [if_neg fun h => h.2 hbuffer]
    exact (if_pos hbuffer).symm
  · rw [if_pos ⟨hc, hbuffer⟩]
    exact (if_neg hbuffer).symm

theorem settle_of_ne_through (c : Connection) (decoded : Frame.Decoded)
    {r : Bytes × Ending × Engine} (h : r.2.1 ≠ .through) :
    (c.settle decoded r).2.1.phase ≠ .reading ∧ EndsAs (c.settle decoded r) r := by
  obtain ⟨written, ending, e⟩ := r
  cases ending with
  | through => exact absurd rfl h
  | stuck => exact ⟨nofun, rfl, iff_of_true rfl rfl, by simp [settle, lastWords]⟩
  | quit => exact ⟨nofun, rfl, iff_of_false nofun nofun, by simp [settle, lastWords]⟩

theorem settle_of_failed (c : Connection) {decoded : Frame.Decoded} {r : Bytes × Ending × Engine}
    (h : r.2.1 = .through) {cause : Frame.StreamError} (hfailure : decoded.failure = some cause) :
    c.settle decoded r = (r.1 ++ errorLine cause.message, { c with phase := .closed }, r.2.2) := by
  obtain ⟨written, ending, e⟩ := r
  cases h
  rw [settle, hfailure]

theorem settle_of_waiting (c : Connection) {decoded : Frame.Decoded} {r : Bytes × Ending × Engine}
    (h : r.2.1 = .through) (hfailure : decoded.failure = none) :
    c.settle decoded r = (r.1, { c with buffer := decoded.left }, r.2.2) := by
  obtain ⟨written, ending, e⟩ := r
  cases h
  rw [settle, hfailure]

section
variable [Glob.Matcher]

/-- Serves all that is in some bytes, one request at a time. -/
def singly (e : Engine) (id : SessionId) (maxBuffer : Nat) (input : Bytes) :
    Bytes × Ending × Engine :=
  let decoded := Frame.decode maxBuffer input
  goOn (serveSingly e id decoded.frames) fun e => (closingLine decoded, .through, e)

theorem receiveAll_cons (c : Connection) (e : Engine) (d : Delivery) (rest : List Delivery) :
    c.receiveAll e (d :: rest) =
      ((c.receive e d).1 ++ ((c.receive e d).2.1.receiveAll (c.receive e d).2.2 rest).1,
        ((c.receive e d).2.1.receiveAll (c.receive e d).2.2 rest).2) := rfl

theorem receiveAll_of_stopped {c : Connection} (hc : c.phase ≠ .reading) (e : Engine)
    (deliveries : List Delivery) : c.receiveAll e deliveries = ([], c, e) := by
  have hreceive (d : Delivery) : c.receive e d = ([], c, e) := by
    unfold receive
    split
    · rfl
    · rfl
    · next hreading => exact absurd hreading hc
  induction deliveries with
  | nil => rfl
  | cons d rest ih =>
    rw [receiveAll_cons, hreceive, ih]
    rfl

/-- By induction on the deliveries: as long as the connection reads on, what it has not read yet is
what is left in its buffer, too short for a request, and what is still to come. -/
theorem receiveAll_endsAs {c : Connection} (hc : c.phase = .reading)
    (hbuffer : Frame.next? c.maxBuffer c.buffer = .ok none) (e : Engine)
    {deliveries : List Delivery}
    (hmax : (c.buffer ++ (deliveries.map (·.chunk)).flatten).length ≤ c.maxBuffer) :
    EndsAs (c.receiveAll e deliveries)
      (goOn (serveBatches e c.session (batches c.maxBuffer c.buffer deliveries)) fun e =>
        (closingLine (Frame.decode c.maxBuffer (c.buffer ++ (deliveries.map (·.chunk)).flatten)),
          .through, e)) := by
  induction deliveries generalizing c e with
  | nil =>
    have hphase : c.phase ≠ .stuck := by
      rw [hc]
      nofun
    rw [List.map_nil, List.flatten_nil, List.append_nil, Frame.decode_of_none hbuffer]
    exact ⟨rfl, iff_of_false hphase nofun, lastWords_of_reading hc⟩
  | cons d rest ih =>
    rw [List.map_cons, List.flatten_cons, ← List.append_assoc] at hmax ⊢
    rw [batches, serveBatches_append, goOn_goOn]
    generalize hdecoded : Frame.decode c.maxBuffer (c.buffer ++ d.chunk) = decoded
    generalize hserved : serveBatches e c.session (pieces d.sizes decoded.frames) = served
    have hreceive : c.receive e d = c.settle decoded served := by
      simp only [receive, hc, hdecoded, hserved]
    rw [receiveAll_cons, hreceive]
    by_cases hthrough : served.2.1 = .through
    · rw [goOn_of_through _ hthrough]
      cases hfailure : decoded.failure with
      | some cause =>
        obtain ⟨-, hfailed⟩ :=
          Frame.decode_append_of_failed hmax (by rw [hdecoded]; exact hfailure)
        have hclosing : closingLine (Frame.decode c.maxBuffer
            (c.buffer ++ d.chunk ++ (rest.map (·.chunk)).flatten)) = errorLine cause.message := by
          rw [closingLine, hfailed]
        -- What comes after bytes that are malformed is not read in either way.
        have hclosed : ({ c with phase := .closed } : Connection).phase ≠ .reading := nofun
        rw [c.settle_of_failed hthrough hfailure, receiveAll_of_stopped hclosed, hclosing]
        exact ⟨rfl, iff_of_false nofun nofun, by simp [goOn, serveBatches, lastWords]⟩
      | none =>
        have hwaiting : (Frame.decode c.maxBuffer (c.buffer ++ d.chunk)).failure = none := by
          rw [hdecoded]
          exact hfailure
        obtain ⟨hleft, hlength⟩ := Frame.decode_waits hwaiting
        rw [hdecoded] at hleft hlength
        have hmax' : (decoded.left ++ (rest.map (·.chunk)).flatten).length ≤ c.maxBuffer := by
          rw [List.length_append] at hmax ⊢
          omega
        have hlater := @ih { c with buffer := decoded.left } hc hleft served.2.2 hmax'
        rw [c.settle_of_waiting hthrough hfailure, Frame.decode_append_of_waiting hmax hwaiting,
          hdecoded]
        refine ⟨hlater.engine, hlater.stuck, ?_⟩
        exact (List.append_assoc _ _ _).trans (congrArg (served.1 ++ ·) hlater.written)
    · obtain ⟨hstopped, hends⟩ := c.settle_of_ne_through decoded hthrough
      rw [receiveAll_of_stopped hstopped, List.append_nil, goOn_of_ne_through _ hthrough]
      exact hends

theorem receiveAll_start_endsAs (e : Engine) (name : String) {maxBuffer : Nat}
    {deliveries : List Delivery}
    (hmax : (deliveries.map (·.chunk)).flatten.length ≤ maxBuffer) :
    let c := (start e name maxBuffer).1
    let begun := (start e name maxBuffer).2
    EndsAs (c.receiveAll begun deliveries)
      (goOn (serveBatches begun c.session (batches maxBuffer [] deliveries)) fun e =>
        (closingLine (Frame.decode maxBuffer (deliveries.map (·.chunk)).flatten), .through, e)) := by
  have hbuffer : Frame.next? maxBuffer [] = .ok none := if_neg (Nat.not_lt_zero maxBuffer)
  exact receiveAll_endsAs rfl hbuffer _ hmax

/-- However the bytes of a client are cut into chunks, and in whatever batches the requests that a
chunk completes are served, a connection leaves the keyspace and the sessions as if the requests had
been served one at a time, and has replied the same bytes: up to QUIT, to the error at which bytes
are malformed, or to the one that tells of bytes too short for a request. The exception is a request
that never gets a reply. Both go no further than that one, and while all requests before it have
been replied to one at a time, only those in the batches before its own have been in batches. -/
theorem replies_independent_of_batching_unless_stuck (e : Engine) (name : String)
    {maxBuffer : Nat} {input : Bytes} (hmax : input.length ≤ maxBuffer)
    {deliveries : List Delivery} (hcut : (deliveries.map (·.chunk)).flatten = input) :
    let c := (start e name maxBuffer).1
    let begun := (start e name maxBuffer).2
    let frames := (Frame.decode maxBuffer input).frames
    let r := c.receiveAll begun deliveries
    let s := singly begun c.session maxBuffer input
    r.2.2 = s.2.2 ∧
      ((∀ before, ¬ StuckAfter begun c.session frames before) →
        r.2.1.phase ≠ .stuck ∧ s.2.1 ≠ .stuck ∧ r.1 ++ r.2.1.lastWords = s.1) ∧
      ∀ before, StuckAfter begun c.session frames before →
        r.2.1.phase = .stuck ∧ s.2.1 = .stuck ∧ s.1 = (serveSingly begun c.session before).1 ∧
          ∃ done, Complete done (batches maxBuffer [] deliveries) before ∧
            r.1 = (serveSingly begun c.session done.flatten).1 := by
  intro c begun frames r s
  subst hcut
  have hbuffer : Frame.next? maxBuffer [] = .ok none := if_neg (Nat.not_lt_zero maxBuffer)
  have hends : EndsAs r (goOn (serveBatches begun c.session (batches maxBuffer [] deliveries))
      fun e => (closingLine (Frame.decode maxBuffer (deliveries.map (·.chunk)).flatten),
        .through, e)) := receiveAll_start_endsAs e name hmax
  have hframes : (batches maxBuffer [] deliveries).flatten = frames := flatten_batches hbuffer hmax
  refine ⟨?_, fun hnone => ?_, fun before hbefore => ?_⟩
  · refine hends.engine.trans (congrArg Prod.snd (snd_goOn_congr _ ?_))
    rw [snd_serveBatches]
    exact congrArg (fun frames => (serveSingly begun c.session frames).2) hframes
  · have hne : (serveSingly begun c.session frames).2.1 ≠ .stuck := fun hstuck => by
      obtain ⟨before, hbefore⟩ := (stuck_serveSingly_iff _ _ _).1 hstuck
      exact hnone before hbefore
    rw [← hframes] at hne
    rw [serveBatches_of_ne_stuck hne, hframes] at hends
    rw [hframes] at hne
    have hs : s.2.1 ≠ .stuck := mt (stuck_goOn_iff _ fun _ => rfl).1 hne
    exact ⟨mt hends.stuck.1 hs, hs, hends.written⟩
  · obtain ⟨hwritten, hstuck⟩ := hbefore.serveSingly
    have hne : (serveSingly begun c.session frames).2.1 ≠ .through := ne_through_of_stuck hstuck
    have hs : s = serveSingly begun c.session frames := goOn_of_ne_through _ hne
    rw [← hframes] at hbefore
    obtain ⟨done, hdone, hserved⟩ := serveBatches_of_stuckAfter hbefore
    rw [hserved, hframes, goOn_of_ne_through _ (by exact hne)] at hends
    have hphase : r.2.1.phase = .stuck := hends.stuck.2 hstuck
    have hreplied := hends.written
    rw [lastWords, if_neg (by rw [hphase]; nofun), List.append_nil] at hreplied
    rw [hs]
    exact ⟨hphase, hstuck, hwritten, done, hdone, hreplied⟩

end

/-- Two requests and the start of a third, cut within the first and the second. -/
theorem replies_to_cut_requests :
    let input := Bytes.ofString "*1\r\n$4\r\nPING\r\n*2\r\n$4\r\nECHO\r\n$1\r\nx\r\n*1\r\n"
    let deliveries : List Delivery :=
      [⟨input.take 9, []⟩, ⟨(input.drop 9).take 12, [1]⟩, ⟨input.drop 21, [0, 1]⟩]
    let c := (start { maxQueued := 3 } "client" 64).1
    let begun := (start { maxQueued := 3 } "client" 64).2
    let r := c.receiveAll begun deliveries
    input.length ≤ 64 ∧ (deliveries.map (·.chunk)).flatten = input ∧
      (∀ before, ¬ StuckAfter begun c.session (Frame.decode 64 input).frames before) ∧
      r.2.1.phase ≠ .stuck ∧ r.1 ++ r.2.1.lastWords =
        Bytes.ofString "+PONG\r\n$1\r\nx\r\n-bytes remaining on stream\r\n" := by
  intro input deliveries c begun r
  have hmax : input.length ≤ 64 := by decide
  have hcut : (deliveries.map (·.chunk)).flatten = input := by decide
  have hping : Frame.next? 64 input = .ok (some (.bulkArray [Bytes.ofString "PING"],
    Bytes.ofString "*2\r\n$4\r\nECHO\r\n$1\r\nx\r\n*1\r\n")) := rfl
  have hecho : Frame.next? 64 (Bytes.ofString "*2\r\n$4\r\nECHO\r\n$1\r\nx\r\n*1\r\n") =
    .ok (some (.bulkArray [Bytes.ofString "ECHO", [120]], Bytes.ofString "*1\r\n")) := rfl
  have hshort : Frame.next? 64 (Bytes.ofString "*1\r\n") = .ok none := rfl
  have hdecoded := Frame.decode_of_some hping
  rw [Frame.decode_of_some hecho, Frame.decode_of_none hshort] at hdecoded
  have hsingly : ∃ left, singly begun c.session 64 input =
      (Bytes.ofString "+PONG\r\n$1\r\nx\r\n-bytes remaining on stream\r\n", .through, left) := by
    unfold singly
    rw [hdecoded]
    exact ⟨_, rfl⟩
  obtain ⟨left, hsingly⟩ := hsingly
  have hnone (before : List Frame) :
      ¬ StuckAfter begun c.session (Frame.decode 64 input).frames before := by
    intro hbefore
    have hstuck := hbefore.serveSingly.2
    rw [hdecoded] at hstuck
    cases hstuck
  obtain ⟨-, hsame, -⟩ :=
    replies_independent_of_batching_unless_stuck { maxQueued := 3 } "client" hmax hcut
  obtain ⟨hphase, -, hwritten⟩ := hsame hnone
  rw [hsingly] at hwritten
  exact ⟨hmax, hcut, hnone, hphase, hwritten⟩

/-- A request that is replied to, and one that never is, in one batch: the first reply is not
written. -/
theorem not_replies_independent_of_batching :
    ¬ ∀ (e : Engine) (name : String) (maxBuffer : Nat) (input : Bytes), input.length ≤ maxBuffer →
      ∀ deliveries : List Delivery, (deliveries.map (·.chunk)).flatten = input →
        let c := (start e name maxBuffer).1
        let begun := (start e name maxBuffer).2
        let r := c.receiveAll begun deliveries
        let s := singly begun c.session maxBuffer input
        r.1 ++ r.2.1.lastWords = s.1 ∧ r.2.2 = s.2.2 := by
  intro h
  let input := Bytes.ofString "*1\r\n$4\r\nPING\r\n*3\r\n$5\r\nBRPOP\r\n$1\r\nl\r\n$1\r\n0\r\n"
  let ping : Frame := .bulkArray [Bytes.ofString "PING"]
  let pop : Frame := .bulkArray [Bytes.ofString "BRPOP", Bytes.ofString "l", Bytes.ofString "0"]
  let c := (start { maxQueued := 3 } "client" 64).1
  let begun := (start { maxQueued := 3 } "client" 64).2
  have hmax : input.length ≤ 64 := by decide
  have hping : Frame.next? 64 input = .ok (some (ping,
    Bytes.ofString "*3\r\n$5\r\nBRPOP\r\n$1\r\nl\r\n$1\r\n0\r\n")) := rfl
  have hpop : Frame.next? 64 (Bytes.ofString "*3\r\n$5\r\nBRPOP\r\n$1\r\nl\r\n$1\r\n0\r\n") =
    .ok (some (pop, [])) := rfl
  have hdecoded := Frame.decode_of_some hping
  rw [Frame.decode_of_some hpop, Frame.decode_of_none (b := []) rfl] at hdecoded
  have hread : Command.ofFrame pop = .ok (.lists (.brpop [Bytes.ofString "l"] 0)) := by
    decide +kernel
  have hstuck : StuckAfter begun c.session [ping, pop] [ping] := by
    refine ⟨pop, [], rfl, rfl, _, _, _, rfl, rfl, hread, rfl, fun key _ => ?_⟩
    exact .inl rfl
  obtain ⟨hwritten, hending⟩ := hstuck.serveSingly
  have hne : (serveSingly begun c.session [ping, pop]).2.1 ≠ .through :=
    ne_through_of_stuck hending
  have hbatches : batches 64 [] [⟨input, []⟩] = [[ping, pop]] := by
    rw [batches, List.nil_append, hdecoded]
    rfl
  have hcut : (([⟨input, []⟩] : List Delivery).map (·.chunk)).flatten = input :=
    List.append_nil input
  have hends : EndsAs (c.receiveAll begun [⟨input, []⟩])
      (goOn (serveBatches begun c.session [[ping, pop]]) fun e =>
        (closingLine (Frame.decode 64 input), .through, e)) := by
    have hall := receiveAll_start_endsAs { maxQueued := 3 } "client" (hcut.symm ▸ hmax)
    dsimp only at hall
    rwa [hcut, hbatches] at hall
  rw [serveBatches_of_first_stuck hending] at hends
  have hbatched := hends.written
  have hsingly : (singly begun c.session 64 input).1 = Bytes.ofString "+PONG\r\n" := by
    unfold singly
    rw [hdecoded]
    dsimp only
    rw [goOn_of_ne_through _ hne, hwritten]
    rfl
  have hsame := (h { maxQueued := 3 } "client" 64 input hmax [⟨input, []⟩] hcut).1
  rw [hsame, hsingly] at hbatched
  generalize serveSingly begun c.session [ping, pop] = q at hne hbatched
  rw [goOn_of_ne_through _ (by exact hne)] at hbatched
  cases hbatched

end Connection
end RespStore
