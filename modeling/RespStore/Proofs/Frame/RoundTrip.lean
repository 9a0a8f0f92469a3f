import RespStore.Frame.Serialize
import RespStore.Proofs.Frame.Line
import RespStore.Proofs.Number.Decimal

/-! A serialized frame reads back as itself exactly if none of its texts has a line break in it and
its lengths are those of data that a memory holds. -/
namespace RespStore.Frame

mutual

/-- All texts of a frame, and the lengths of all its data and arrays, are of some kind. -/
def Every (text : String → Prop) (length : Nat → Prop) : Frame → Prop
  | .simple s | .error s => text s
  | .bulk data => length data.length
  | .array items => length items.length ∧ EveryIn text length items
  | .integer _ | .null | .nullBulk | .nullArray => True

def EveryIn (text : String → Prop) (length : Nat → Prop) : List Frame → Prop
  | [] => True
  | frame :: rest => Every text length frame ∧ EveryIn text length rest

end

/-- A length that can be announced, as can that of all data a memory holds. -/
def IsLength (n : Nat) : Prop := n < Nat.pow 2 63

theorem isLength_iff {n : Nat} : IsLength n ↔ n < 9223372036854775808 := Iff.rfl

def OneLine (f : Frame) : Prop := f.Every IsLine fun _ => True

def Fits (f : Frame) : Prop := f.Every (fun _ => True) IsLength

section
variable {text text' : String → Prop} {length length' : Nat → Prop}

theorem everyIn_iff {frames : List Frame} :
    EveryIn text length frames ↔ ∀ f ∈ frames, f.Every text length := by
  induction frames with
  | nil => exact ⟨nofun, fun _ => trivial⟩
  | cons f rest ih => simp only [EveryIn, ih, List.forall_mem_cons]

mutual

theorem every_and : ∀ f : Frame, (f.Every text length ∧ f.Every text' length') ↔
    f.Every (fun s => text s ∧ text' s) fun n => length n ∧ length' n
  | .simple _ | .error _ | .bulk _ => Iff.rfl
  | .integer _ | .null | .nullBulk | .nullArray => and_self_iff
  | .array items => by
    have hitems := everyIn_and items
    simp only [Every, ← hitems]
    exact and_and_and_comm

theorem everyIn_and : ∀ frames : List Frame,
    (EveryIn text length frames ∧ EveryIn text' length' frames) ↔
      EveryIn (fun s => text s ∧ text' s) (fun n => length n ∧ length' n) frames
  | [] => and_self_iff
  | f :: rest => by
    have hf := every_and f
    have hrest := everyIn_and rest
    simp only [EveryIn, ← hf, ← hrest]
    exact and_and_and_comm

end
end

theorem every_iff_oneLine_and_fits (f : Frame) : f.Every IsLine IsLength ↔ f.OneLine ∧ f.Fits := by
  unfold OneLine Fits
  rw [every_and]
  simp only [and_true, true_and]

theorem readText_eq_ok_iff {b : Bytes} {s : String} :
    readText b = .ok s ↔ b = Bytes.ofString s := by
  unfold readText
  rw [eq_comm (a := b), ← Bytes.toString?_eq_some_iff]
  cases Bytes.toString? b with
  | none => exact ⟨nofun, nofun⟩
  | some text => simp only [Except.ok.injEq, Option.some.injEq]

theorem readInteger_bytes (n : Int64) : readInteger (Decimal.bytes n.toInt) = .ok n := by
  have htext : readText (Decimal.bytes n.toInt) = .ok (toString n.toInt) :=
    readText_eq_ok_iff.2 rfl
  simp only [readInteger, htext, Decimal.readInt64_bytes]
  rfl

theorem readInteger_natCast {n : Nat} {k : Int64} :
    readInteger (Decimal.bytes n) = .ok k ↔ IsLength n ∧ k.toInt = n := by
  constructor
  · intro h
    obtain ⟨_, -, h⟩ := bind_eq_ok_iff.1 h
    split at h
    · next k' hk =>
      cases h
      obtain ⟨m, hm, rfl⟩ := map_eq_ok_iff.1 hk
      obtain ⟨rfl, hle⟩ := Decimal.eq_of_read_natCast hm
      have hmax : n ≤ 9223372036854775807 := hle
      refine ⟨isLength_iff.2 (by omega), ?_⟩
      rw [Int64.toInt_ofInt_of_le (by omega) (by omega)]
    · cases h
  · rintro ⟨-, hk⟩
    rw [← hk]
    exact readInteger_bytes k

theorem readLength_eq_ok_iff {negative : ParseError} {n : Nat} {m? : Option Nat} :
    readLength negative (Decimal.bytes n) = .ok m? ↔ IsLength n ∧ m? = some n := by
  have hcases {k : Int64} (hk : k.toInt = n) :
      (if k.toInt = -1 then .ok none
        else if k.toInt < 0 then .error negative
        else .ok (some k.toInt.toNat) : Except ParseError (Option Nat)) = .ok (some n) := by
    rw [if_neg (by omega), if_neg (by omega), hk]
    rfl
  unfold readLength
  constructor
  · intro h
    obtain ⟨k, hread, h⟩ := bind_eq_ok_iff.1 h
    obtain ⟨hlength, hk⟩ := readInteger_natCast.1 hread
    rw [hcases hk] at h
    cases h
    exact ⟨hlength, rfl⟩
  · rintro ⟨hlength, rfl⟩
    have hk : (Int64.ofInt n).toInt = n := by
      rw [isLength_iff] at hlength
      exact Int64.toInt_ofInt_of_le (by omega) (by omega)
    exact bind_eq_ok_iff.2 ⟨_, readInteger_natCast.2 ⟨hlength, hk⟩, hcases hk⟩

variable {one : Bytes → Except ParseError (Frame × Bytes)}

theorem parseWithin_of_marker {depth : Nat} {b : UInt8} {marker : Marker} {more : Bytes}
    (rest : Bytes) (h : Marker.ofByte b = .ok marker) (hdepth : (b :: more).length ≤ depth) :
    parseWithin depth (b :: more ++ rest) =
      parseBody (parseWithin (depth - 1)) marker (more ++ rest) := by
  cases depth with
  | zero => exact absurd hdepth (Nat.not_succ_le_zero _)
  | succ depth =>
    rw [List.cons_append, parseWithin, h]
    rfl

theorem takeLine_append {line : Bytes} (h : ¬ line.HasBreak) (rest : Bytes) :
    takeLine (line ++ Bytes.crlf ++ rest) = .ok (line, rest) :=
  takeLine_eq_ok_iff.2 ⟨rfl, h⟩

theorem not_hasBreak_bytes (n : Int) : ¬ (Decimal.bytes n).HasBreak :=
  Bytes.not_hasBreak_of_not_mem (Decimal.newline_not_mem_bytes n)

theorem readText_ofString (s : String) : readText (Bytes.ofString s) = .ok s :=
  readText_eq_ok_iff.2 rfl

theorem readLength_null (negative : ParseError) :
    readLength negative (Decimal.bytes (-1)) = .ok none := by
  have hread : readInteger (Decimal.bytes (-1)) = .ok (-1) := readInteger_bytes (-1)
  rw [readLength, hread]
  rfl

theorem readLength_natCast (negative : ParseError) {n : Nat} (h : IsLength n) :
    readLength negative (Decimal.bytes n) = .ok (some n) :=
  readLength_eq_ok_iff.2 ⟨h, rfl⟩

mutual

/-- By induction on the frame; each level of nesting takes at least the byte of its marker. -/
theorem parseWithin_serialize : ∀ (f : Frame) (depth : Nat) (rest : Bytes),
    f.Every IsLine IsLength → (serialize f).length ≤ depth →
      parseWithin depth (serialize f ++ rest) = .ok (f, rest)
  | .simple s, depth, rest, h, hdepth => by
    have hline := takeLine_append h rest
    rw [serialize, parseWithin_of_marker rest rfl hdepth]
    exact bind_eq_ok_iff.2 ⟨_, hline, bind_eq_ok_iff.2 ⟨s, readText_ofString s, rfl⟩⟩
  | .error s, depth, rest, h, hdepth => by
    have hline := takeLine_append h rest
    rw [serialize, parseWithin_of_marker rest rfl hdepth]
    exact bind_eq_ok_iff.2 ⟨_, hline, bind_eq_ok_iff.2 ⟨s, readText_ofString s, rfl⟩⟩
  | .integer n, depth, rest, _, hdepth => by
    have hline := takeLine_append (not_hasBreak_bytes n.toInt) rest
    rw [serialize, parseWithin_of_marker rest rfl hdepth]
    exact bind_eq_ok_iff.2 ⟨_, hline, bind_eq_ok_iff.2 ⟨n, readInteger_bytes n, rfl⟩⟩
  | .bulk data, depth, rest, h, hdepth => by
    have hline := takeLine_append (not_hasBreak_bytes data.length) (data ++ Bytes.crlf ++ rest)
    have hsized : takeSized data.length (data ++ Bytes.crlf ++ rest) = .ok (data, rest) :=
      takeSized_eq_ok_iff.2 ⟨rfl, rfl⟩
    rw [serialize, parseWithin_of_marker rest rfl hdepth]
    simp only [List.append_assoc] at hline hsized ⊢
    refine bind_eq_ok_iff.2 ⟨_, hline, bind_eq_ok_iff.2 ⟨_, readLength_natCast _ h, ?_⟩⟩
    exact bind_eq_ok_iff.2 ⟨_, hsized, rfl⟩
  | .null, depth, rest, _, hdepth => by
    have hline := takeLine_append Bytes.not_hasBreak_nil rest
    rw [serialize, parseWithin_of_marker rest rfl hdepth]
    exact bind_eq_ok_iff.2 ⟨_, hline, rfl⟩
  | .nullBulk, depth, rest, _, hdepth => by
    have hline := takeLine_append (not_hasBreak_bytes (-1)) rest
    rw [serialize, parseWithin_of_marker rest rfl hdepth]
    exact bind_eq_ok_iff.2 ⟨_, hline, bind_eq_ok_iff.2 ⟨none, readLength_null _, rfl⟩⟩
  | .nullArray, depth, rest, _, hdepth => by
    have hline := takeLine_append (not_hasBreak_bytes (-1)) rest
    rw [serialize, parseWithin_of_marker rest rfl hdepth]
    exact bind_eq_ok_iff.2 ⟨_, hline, bind_eq_ok_iff.2 ⟨none, readLength_null _, rfl⟩⟩
  | .array items, depth, rest, ⟨hlength, hitems⟩, hdepth => by
    have hline := takeLine_append (not_hasBreak_bytes items.length) (serializeAll items ++ rest)
    have hshorter : (serializeAll items).length ≤ depth - 1 := by
      simp only [serialize, List.length_cons, List.length_append] at hdepth
      omega
    have hall := parseAll_serializeAll items _ rest hitems hshorter
    rw [serialize, parseWithin_of_marker rest rfl hdepth]
    simp only [List.append_assoc] at hline ⊢
    refine bind_eq_ok_iff.2 ⟨_, hline, bind_eq_ok_iff.2 ⟨_, readLength_natCast _ hlength, ?_⟩⟩
    exact bind_eq_ok_iff.2 ⟨_, hall, rfl⟩

theorem parseAll_serializeAll : ∀ (frames : List Frame) (depth : Nat) (rest : Bytes),
    EveryIn IsLine IsLength frames → (serializeAll frames).length ≤ depth →
      parseAll (parseWithin depth) frames.length (serializeAll frames ++ rest) =
        .ok (frames, rest)
  | [], _, _, _, _ => rfl
  | f :: frames, depth, rest, ⟨hf, hframes⟩, hdepth => by
    rw [serializeAll, List.length_append] at hdepth
    have hfirst := parseWithin_serialize f depth (serializeAll frames ++ rest) hf (by omega)
    have hrest := parseAll_serializeAll frames depth rest hframes (by omega)
    rw [serializeAll, List.append_assoc]
    exact bind_eq_ok_iff.2 ⟨_, hfirst, bind_eq_ok_iff.2 ⟨_, hrest, rfl⟩⟩

end

theorem parseBody_of_parseWithin {depth : Nat} {b : UInt8} {marker : Marker} {more rest : Bytes}
    {parsed : Frame × Bytes} (h : Marker.ofByte b = .ok marker)
    (hparse : parseWithin depth (b :: more ++ rest) = .ok parsed) :
    parseBody (parseWithin (depth - 1)) marker (more ++ rest) = .ok parsed := by
  cases depth with
  | zero => cases hparse
  | succ depth =>
    rw [List.cons_append, parseWithin, h] at hparse
    exact hparse

/-- A text that is read back as it was written was on one line, and nothing after it was read. -/
theorem eq_of_takeLine_text {s : String} {line after rest : Bytes}
    (hline : takeLine (Bytes.ofString s ++ Bytes.crlf ++ rest) = .ok (line, after))
    (htext : readText line = .ok s) : IsLine s ∧ after = rest := by
  obtain ⟨heq, hbreak⟩ := takeLine_eq_ok_iff.1 hline
  rw [readText_eq_ok_iff.1 htext] at heq hbreak
  exact ⟨hbreak, (List.append_cancel_left heq).symm⟩

mutual

/-- A frame that is read back was fit to be written. By induction on the frame. -/
theorem every_of_parseWithin_serialize : ∀ (f : Frame) {depth : Nat} {rest after : Bytes},
    parseWithin depth (serialize f ++ rest) = .ok (f, after) →
      f.Every IsLine IsLength ∧ after = rest
  | .simple s, depth, rest, after, h => by
    rw [serialize] at h
    obtain ⟨⟨line, _⟩, hline, h⟩ := bind_eq_ok_iff.1 (parseBody_of_parseWithin rfl h)
    obtain ⟨_, htext, heq⟩ := bind_eq_ok_iff.1 h
    cases heq
    exact eq_of_takeLine_text hline htext
  | .error s, depth, rest, after, h => by
    rw [serialize] at h
    obtain ⟨⟨line, _⟩, hline, h⟩ := bind_eq_ok_iff.1 (parseBody_of_parseWithin rfl h)
    obtain ⟨_, htext, heq⟩ := bind_eq_ok_iff.1 h
    cases heq
    exact eq_of_takeLine_text hline htext
  | .integer n, depth, rest, after, h => by
    rw [serialize] at h
    obtain ⟨⟨line, _⟩, hline, h⟩ := bind_eq_ok_iff.1 (parseBody_of_parseWithin rfl h)
    obtain ⟨_, -, heq⟩ := bind_eq_ok_iff.1 h
    cases heq
    rw [takeLine_append (not_hasBreak_bytes n.toInt) rest] at hline
    cases hline
    exact ⟨trivial, rfl⟩
  | .bulk data, depth, rest, after, h => by
    have hwritten :=
      takeLine_append (not_hasBreak_bytes data.length) (data ++ Bytes.crlf ++ rest)
    rw [serialize] at h
    obtain ⟨⟨line, _⟩, hline, h⟩ := bind_eq_ok_iff.1 (parseBody_of_parseWithin rfl h)
    simp only [List.append_assoc] at hline hwritten
    rw [hwritten] at hline
    cases hline
    obtain ⟨_, hread, h⟩ := bind_eq_ok_iff.1 h
    obtain ⟨hlength, rfl⟩ := readLength_eq_ok_iff.1 hread
    obtain ⟨⟨_, _⟩, hsized, heq⟩ := bind_eq_ok_iff.1 h
    cases heq
    -- The data is cut off by its length, so that it may have anything in it.
    obtain ⟨heq, -⟩ := takeSized_eq_ok_iff.1 hsized
    rw [List.append_assoc] at heq
    exact ⟨hlength, (List.append_cancel_left (List.append_cancel_left heq)).symm⟩
  | .null, depth, rest, after, h => by
    rw [serialize] at h
    obtain ⟨⟨line, _⟩, hline, heq⟩ := bind_eq_ok_iff.1 (parseBody_of_parseWithin rfl h)
    cases heq
    rw [show Bytes.crlf ++ rest = [] ++ Bytes.crlf ++ rest from rfl,
      takeLine_append Bytes.not_hasBreak_nil rest] at hline
    cases hline
    exact ⟨trivial, rfl⟩
  | .nullBulk, depth, rest, after, h => by
    rw [serialize] at h
    obtain ⟨⟨line, _⟩, hline, h⟩ := bind_eq_ok_iff.1 (parseBody_of_parseWithin rfl h)
    rw [takeLine_append (not_hasBreak_bytes (-1)) rest] at hline
    cases hline
    obtain ⟨_, hread, heq⟩ := bind_eq_ok_iff.1 h
    rw [readLength_null] at hread
    cases hread
    cases heq
    exact ⟨trivial, rfl⟩
  | .nullArray, depth, rest, after, h => by
    rw [serialize] at h
    obtain ⟨⟨line, _⟩, hline, h⟩ := bind_eq_ok_iff.1 (parseBody_of_parseWithin rfl h)
    rw [takeLine_append (not_hasBreak_bytes (-1)) rest] at hline
    cases hline
    obtain ⟨_, hread, heq⟩ := bind_eq_ok_iff.1 h
    rw [readLength_null] at hread
    cases hread
    cases heq
    exact ⟨trivial, rfl⟩
  | .array items, depth, rest, after, h => by
    have hwritten :=
      takeLine_append (not_hasBreak_bytes items.length) (serializeAll items ++ rest)
    rw [serialize] at h
    obtain ⟨⟨line, _⟩, hline, h⟩ := bind_eq_ok_iff.1 (parseBody_of_parseWithin rfl h)
    simp only [List.append_assoc] at hline hwritten
    rw [hwritten] at hline
    cases hline
    obtain ⟨_, hread, h⟩ := bind_eq_ok_iff.1 h
    obtain ⟨hlength, rfl⟩ := readLength_eq_ok_iff.1 hread
    obtain ⟨⟨_, _⟩, hall, heq⟩ := bind_eq_ok_iff.1 h
    cases heq
    obtain ⟨hitems, rfl⟩ := everyIn_of_parseAll_serializeAll items hall
    exact ⟨⟨hlength, hitems⟩, rfl⟩

theorem everyIn_of_parseAll_serializeAll : ∀ (frames : List Frame) {depth : Nat}
    {rest after : Bytes}, parseAll (parseWithin depth) frames.length (serializeAll frames ++ rest) =
      .ok (frames, after) → EveryIn IsLine IsLength frames ∧ after = rest
  | [], _, _, _, h => by
    cases h
    exact ⟨trivial, rfl⟩
  | f :: frames, depth, rest, after, h => by
    rw [serializeAll, List.append_assoc] at h
    obtain ⟨⟨_, middle⟩, hfirst, h⟩ := bind_eq_ok_iff.1 h
    obtain ⟨⟨_, _⟩, hrest, heq⟩ := bind_eq_ok_iff.1 h
    cases heq
    obtain ⟨hf, rfl⟩ := every_of_parseWithin_serialize f hfirst
    obtain ⟨hframes, rfl⟩ := everyIn_of_parseAll_serializeAll frames hrest
    exact ⟨⟨hf, hframes⟩, rfl⟩

end

/-- A frame reads back, whatever comes after it, exactly if it was fit to be written. -/
theorem parse_serialize_iff (f : Frame) (rest : Bytes) :
    parse (serialize f ++ rest) = .ok (f, rest) ↔ f.OneLine ∧ f.Fits := by
  rw [← every_iff_oneLine_and_fits]
  constructor
  · intro h
    exact (every_of_parseWithin_serialize f h).1
  · intro h
    exact parseWithin_serialize f _ rest h (by simp)

/-- So do frames in a row, however many there are. -/
theorem parseAll_parse_iff (frames : List Frame) (rest : Bytes) :
    parseAll parse frames.length (serializeAll frames ++ rest) = .ok (frames, rest) ↔
      ∀ f ∈ frames, f.OneLine ∧ f.Fits := by
  induction frames with
  | nil => exact ⟨fun _ => nofun, fun _ => rfl⟩
  | cons f frames ih =>
    rw [List.forall_mem_cons, ← ih, serializeAll, List.append_assoc]
    constructor
    · intro h
      obtain ⟨⟨_, middle⟩, hfirst, h⟩ := bind_eq_ok_iff.1 h
      obtain ⟨⟨_, _⟩, hrest, heq⟩ := bind_eq_ok_iff.1 h
      cases heq
      obtain ⟨hf, rfl⟩ := every_of_parseWithin_serialize f hfirst
      exact ⟨(every_iff_oneLine_and_fits f).1 hf, hrest⟩
    · rintro ⟨hf, hrest⟩
      have hfirst := (parse_serialize_iff f (serializeAll frames ++ rest)).2 hf
      exact bind_eq_ok_iff.2 ⟨_, hfirst, bind_eq_ok_iff.2 ⟨_, hrest, rfl⟩⟩

/-- A frame whose texts stay on their lines, and whose lengths are those of data that a memory holds,
reads back from the bytes it is written as, and nothing of what follows is read. So none of two such
frames begins with the bytes of the other, unless they are the same. -/
theorem reads_back_and_prefix_free {f g : Frame} (hf : f.OneLine) (hfits : f.Fits) (hg : g.OneLine)
    (hgfits : g.Fits) :
    (∀ rest, parse (serialize f ++ rest) = .ok (f, rest)) ∧
      (serialize f <+: serialize g ↔ f = g) := by
  have hread : ∀ rest, parse (serialize f ++ rest) = .ok (f, rest) :=
    fun rest => (parse_serialize_iff f rest).2 ⟨hf, hfits⟩
  refine ⟨hread, fun hprefix => ?_, fun heq => heq ▸ List.prefix_refl _⟩
  obtain ⟨rest, hrest⟩ := hprefix
  have hwhole : parse (serialize g ++ []) = .ok (g, []) :=
    (parse_serialize_iff g []).2 ⟨hg, hgfits⟩
  rw [List.append_nil, ← hrest, hread] at hwhole
  exact (Prod.mk.inj (Except.ok.inj hwhole)).1

/-- A text that ends in a carriage return, data that is a frame itself, and all nulls. -/
theorem reads_back_of_nested :
    let f := Frame.array [.simple "a\r", .bulk (Bytes.ofString "*1\r\n"), .integer Int64.minValue,
      .array [.null, .nullBulk, .nullArray, .error ""]]
    let g := Frame.array [.simple "a\r"]
    f.OneLine ∧ f.Fits ∧ g.OneLine ∧ g.Fits ∧
      parse (serialize f ++ Bytes.crlf) = .ok (f, Bytes.crlf) ∧ ¬ serialize g <+: serialize f := by
  intro f g
  have hline : IsLine "a\r" := isLine_of_not_mem (by decide)
  have hempty : IsLine "" := isLine_of_not_mem (by decide)
  have hf : f.OneLine := by simp [f, OneLine, Every, EveryIn, hline, hempty]
  have hdata : IsLength (Bytes.ofString "*1\r\n").length := isLength_iff.2 (by decide)
  have hfits : f.Fits := by simp [f, Fits, Every, EveryIn, isLength_iff, isLength_iff.1 hdata]
  have hg : g.OneLine := by simp [g, OneLine, Every, EveryIn, hline]
  have hgfits : g.Fits := by simp [g, Fits, Every, EveryIn, isLength_iff]
  refine ⟨hf, hfits, hg, hgfits, (reads_back_and_prefix_free hf hfits hg hgfits).1 _, ?_⟩
  rw [(reads_back_and_prefix_free hg hgfits hf hfits).2]
  simp [f, g]

end RespStore.Frame
