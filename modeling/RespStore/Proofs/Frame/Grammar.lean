import RespStore.Proofs.Frame.RoundTrip
import RespStore.Proofs.Number.Numeral

/-! The grammar of frames: which byte strings denote which frame. -/
namespace RespStore.Frame

/-- A line that announces a 64-bit integer. -/
def Announces (line : Bytes) (k : Int) : Prop :=
  Decimal.Numeral line k ∧ IntegerRange.int64.Contains k

/-- Which byte strings denote which frame. The texts of lines have no CRLF in them; sized texts and
data may have anything. The parts of an array denote its items, one after the other. -/
inductive Denotes : Bytes → Frame → Prop
  | simple {s : String} (hs : IsLine s) :
      Denotes (43 :: (Bytes.ofString s ++ Bytes.crlf)) (.simple s)
  | error {s : String} (hs : IsLine s) :
      Denotes (45 :: (Bytes.ofString s ++ Bytes.crlf)) (.error s)
  | integer {line : Bytes} {n : Int64} (hn : Announces line n.toInt) :
      Denotes (58 :: (line ++ Bytes.crlf)) (.integer n)
  | bulk {line data : Bytes} (hn : Announces line data.length) :
      Denotes (36 :: (line ++ Bytes.crlf ++ (data ++ Bytes.crlf))) (.bulk data)
  | bulkError {line : Bytes} {s : String} (hn : Announces line (Bytes.ofString s).length) :
      Denotes (33 :: (line ++ Bytes.crlf ++ (Bytes.ofString s ++ Bytes.crlf))) (.error s)
  | array {line : Bytes} {parts : List (Bytes × Frame)} (hn : Announces line parts.length)
      (h : ∀ part ∈ parts, Denotes part.1 part.2) :
      Denotes (42 :: (line ++ Bytes.crlf ++ parts.flatMap (·.1))) (.array (parts.map (·.2)))
  | nullBulk {line : Bytes} (hn : Announces line (-1)) :
      Denotes (36 :: (line ++ Bytes.crlf)) .nullBulk
  | nullArray {line : Bytes} (hn : Announces line (-1)) :
      Denotes (42 :: (line ++ Bytes.crlf)) .nullArray
  | nullError {line : Bytes} (hn : Announces line (-1)) :
      Denotes (33 :: (line ++ Bytes.crlf)) .null
  | null {line : Bytes} (hline : ¬ line.HasBreak) :
      Denotes (95 :: (line ++ Bytes.crlf)) .null

variable {line b after : Bytes} {k : Int} {n : Int64}

theorem Announces.not_hasBreak (h : Announces line k) : ¬ line.HasBreak :=
  Bytes.not_hasBreak_of_not_mem h.1.newline_not_mem

theorem readInteger_eq_ok_iff : readInteger line = .ok n ↔ Announces line n.toInt := by
  unfold readInteger Announces
  rw [bind_eq_ok_iff]
  constructor
  · rintro ⟨_, -, hread⟩
    split at hread
    · next hn =>
      cases hread
      have hlow := Int64.le_toInt n
      have hhigh := Int64.toInt_lt n
      exact ⟨Decimal.readInt64_eq_ok_iff.1 hn, Decimal.int64_contains_iff.2 ⟨hlow, by omega⟩⟩
    · cases hread
  · rintro ⟨hline, -⟩
    obtain ⟨s, hs⟩ := hline.eq_ofString
    have htext : readText line = .ok s := by
      rw [readText, Bytes.toString?_eq_some_iff.2 hs]
    refine ⟨s, htext, ?_⟩
    rw [Decimal.readInt64_eq_ok_iff.2 hline]

theorem readLength_of_announces {negative : ParseError} (h : Announces line k) :
    readLength negative line =
      if k = -1 then .ok none else if k < 0 then .error negative else .ok (some k.toNat) := by
  obtain ⟨hlow, hhigh⟩ := Decimal.int64_contains_iff.1 h.2
  have hk : (Int64.ofInt k).toInt = k := Int64.toInt_ofInt_of_le hlow (by omega)
  have hread : readInteger line = .ok (Int64.ofInt k) := readInteger_eq_ok_iff.2 (hk.symm ▸ h)
  rw [readLength, hread]
  simp only [bind, Except.bind, hk]

theorem announces_of_readLength {negative : ParseError} {n? : Option Nat}
    (h : readLength negative line = .ok n?) : ∃ k, Announces line k ∧
      (if k = -1 then .ok none else if k < 0 then .error negative else .ok (some k.toNat)) =
        (.ok n? : Except ParseError (Option Nat)) := by
  obtain ⟨n, hn, _⟩ := bind_eq_ok_iff.1 h
  have hline := readInteger_eq_ok_iff.1 hn
  exact ⟨n.toInt, hline, (readLength_of_announces hline).symm.trans h⟩

theorem readLength_eq_none_iff {negative : ParseError} :
    readLength negative line = .ok none ↔ Announces line (-1) := by
  refine ⟨fun h => ?_, readLength_of_announces⟩
  obtain ⟨k, hline, hk⟩ := announces_of_readLength h
  split at hk
  · next hnull => exact hnull ▸ hline
  · split at hk <;> cases hk

theorem readLength_eq_some_iff {negative : ParseError} {n : Nat} :
    readLength negative line = .ok (some n) ↔ Announces line n := by
  constructor
  · intro h
    obtain ⟨k, hline, hk⟩ := announces_of_readLength h
    split at hk
    · cases hk
    · split at hk
      · cases hk
      · cases hk
        rwa [Int.toNat_of_nonneg (by omega)]
  · intro h
    rw [readLength_of_announces h, if_neg (by omega), if_neg (by omega), Int.toNat_natCast]

def Marker.byte : Marker → UInt8
  | .simple => 43
  | .error => 45
  | .integer => 58
  | .bulk => 36
  | .bulkError => 33
  | .array => 42
  | .null => 95

theorem Marker.eq_byte_of_ofByte {x : UInt8} {marker : Marker} (h : ofByte x = .ok marker) :
    x = marker.byte := by
  unfold ofByte at h
  repeat' split at h
  all_goals cases h
  all_goals assumption

section
variable {one : Bytes → Except ParseError (Frame × Bytes)}

theorem parts_of_parseAll
    (hone : ∀ {b f after}, one b = .ok (f, after) → ∃ p, b = p ++ after ∧ Denotes p f) {n : Nat}
    {frames : List Frame} (h : parseAll one n b = .ok (frames, after)) :
    ∃ parts : List (Bytes × Frame), parts.length = n ∧ b = parts.flatMap (·.1) ++ after ∧
      frames = parts.map (·.2) ∧ ∀ part ∈ parts, Denotes part.1 part.2 := by
  induction n generalizing b frames with
  | zero =>
    cases h
    exact ⟨[], rfl, rfl, rfl, nofun⟩
  | succ n ih =>
    obtain ⟨⟨f, rest⟩, hfirst, h⟩ := bind_eq_ok_iff.1 h
    obtain ⟨⟨fs, _⟩, hrest, heq⟩ := bind_eq_ok_iff.1 h
    cases heq
    obtain ⟨p, rfl, hf⟩ := hone hfirst
    obtain ⟨parts, rfl, rfl, rfl, hparts⟩ := ih hrest
    refine ⟨(p, f) :: parts, rfl, ?_, rfl, ?_⟩
    · rw [List.flatMap_cons, List.append_assoc]
    · exact List.forall_mem_cons.2 ⟨hf, hparts⟩

theorem denotes_of_parseBody
    (hone : ∀ {b f after}, one b = .ok (f, after) → ∃ p, b = p ++ after ∧ Denotes p f)
    {marker : Marker} {f : Frame} (h : parseBody one marker b = .ok (f, after)) :
    ∃ p, b = p ++ after ∧ Denotes (marker.byte :: p) f := by
  obtain ⟨⟨line, rest⟩, hline, hread⟩ := bind_eq_ok_iff.1 h
  clear h
  obtain ⟨rfl, hbreak⟩ := takeLine_eq_ok_iff.1 hline
  cases marker with
  | simple =>
    obtain ⟨s, htext, heq⟩ := bind_eq_ok_iff.1 hread
    cases heq
    rw [readText_eq_ok_iff.1 htext] at hbreak ⊢
    exact ⟨_, rfl, .simple hbreak⟩
  | error =>
    obtain ⟨s, htext, heq⟩ := bind_eq_ok_iff.1 hread
    cases heq
    rw [readText_eq_ok_iff.1 htext] at hbreak ⊢
    exact ⟨_, rfl, .error hbreak⟩
  | integer =>
    obtain ⟨n, hn, heq⟩ := bind_eq_ok_iff.1 hread
    cases heq
    exact ⟨_, rfl, .integer (readInteger_eq_ok_iff.1 hn)⟩
  | null =>
    cases hread
    exact ⟨_, rfl, .null hbreak⟩
  | bulk =>
    obtain ⟨n?, hn, hread⟩ := bind_eq_ok_iff.1 hread
    cases n? with
    | none =>
      cases hread
      exact ⟨_, rfl, .nullBulk (readLength_eq_none_iff.1 hn)⟩
    | some n =>
      obtain ⟨⟨data, _⟩, hdata, heq⟩ := bind_eq_ok_iff.1 hread
      cases heq
      obtain ⟨rfl, rfl⟩ := takeSized_eq_ok_iff.1 hdata
      exact ⟨_, (List.append_assoc _ _ _).symm, .bulk (readLength_eq_some_iff.1 hn)⟩
  | bulkError =>
    obtain ⟨n?, hn, hread⟩ := bind_eq_ok_iff.1 hread
    cases n? with
    | none =>
      cases hread
      exact ⟨_, rfl, .nullError (readLength_eq_none_iff.1 hn)⟩
    | some n =>
      obtain ⟨⟨data, _⟩, hdata, hread⟩ := bind_eq_ok_iff.1 hread
      obtain ⟨s, htext, heq⟩ := bind_eq_ok_iff.1 hread
      cases heq
      obtain ⟨rfl, rfl⟩ := takeSized_eq_ok_iff.1 hdata
      obtain rfl := readText_eq_ok_iff.1 htext
      exact ⟨_, (List.append_assoc _ _ _).symm, .bulkError (readLength_eq_some_iff.1 hn)⟩
  | array =>
    obtain ⟨n?, hn, hread⟩ := bind_eq_ok_iff.1 hread
    cases n? with
    | none =>
      cases hread
      exact ⟨_, rfl, .nullArray (readLength_eq_none_iff.1 hn)⟩
    | some n =>
      obtain ⟨⟨frames, _⟩, hframes, heq⟩ := bind_eq_ok_iff.1 hread
      cases heq
      obtain ⟨parts, rfl, rfl, rfl, hparts⟩ := parts_of_parseAll hone hframes
      exact ⟨_, (List.append_assoc _ _ _).symm, .array (readLength_eq_some_iff.1 hn) hparts⟩

end

/-- By induction on the depth that is read to. -/
theorem denotes_of_parseWithin {depth : Nat} {f : Frame}
    (h : parseWithin depth b = .ok (f, after)) : ∃ p, b = p ++ after ∧ Denotes p f := by
  induction depth generalizing b f after with
  | zero => cases h
  | succ depth ih =>
    cases b with
    | nil => cases h
    | cons x rest =>
      obtain ⟨marker, hmarker, hbody⟩ := bind_eq_ok_iff.1 h
      obtain ⟨p, rfl, hf⟩ := denotes_of_parseBody ih hbody
      rw [Marker.eq_byte_of_ofByte hmarker]
      exact ⟨_, rfl, hf⟩

theorem parseAll_of_parts {one : Bytes → Except ParseError (Frame × Bytes)}
    {parts : List (Bytes × Frame)}
    (hone : ∀ part ∈ parts, ∀ rest, one (part.1 ++ rest) = .ok (part.2, rest)) (rest : Bytes) :
    parseAll one parts.length (parts.flatMap (·.1) ++ rest) = .ok (parts.map (·.2), rest) := by
  induction parts with
  | nil => rfl
  | cons part parts ih =>
    obtain ⟨hpart, hparts⟩ := List.forall_mem_cons.1 hone
    rw [List.flatMap_cons, List.append_assoc]
    exact bind_eq_ok_iff.2 ⟨_, hpart _, bind_eq_ok_iff.2 ⟨_, ih hparts, rfl⟩⟩

/-- By induction on the denotation; the depth suffices because the parts of an array are shorter
than the whole. -/
theorem parseWithin_of_denotes {p : Bytes} {f : Frame} (h : Denotes p f) {depth : Nat}
    (hdepth : p.length ≤ depth) (rest : Bytes) :
    parseWithin depth (p ++ rest) = .ok (f, rest) := by
  induction h generalizing depth rest with
  | @simple s hs =>
    have hline := takeLine_append hs rest
    rw [parseWithin_of_marker rest rfl hdepth]
    exact bind_eq_ok_iff.2 ⟨_, hline, bind_eq_ok_iff.2 ⟨s, readText_ofString s, rfl⟩⟩
  | @error s hs =>
    have hline := takeLine_append hs rest
    rw [parseWithin_of_marker rest rfl hdepth]
    exact bind_eq_ok_iff.2 ⟨_, hline, bind_eq_ok_iff.2 ⟨s, readText_ofString s, rfl⟩⟩
  | @integer line n hn =>
    have hline := takeLine_append hn.not_hasBreak rest
    rw [parseWithin_of_marker rest rfl hdepth]
    exact bind_eq_ok_iff.2 ⟨_, hline, bind_eq_ok_iff.2 ⟨n, readInteger_eq_ok_iff.2 hn, rfl⟩⟩
  | @bulk line data hn =>
    have hline := takeLine_append hn.not_hasBreak (data ++ Bytes.crlf ++ rest)
    have hsized : takeSized data.length (data ++ Bytes.crlf ++ rest) = .ok (data, rest) :=
      takeSized_eq_ok_iff.2 ⟨rfl, rfl⟩
    rw [parseWithin_of_marker rest rfl hdepth]
    simp only [List.append_assoc] at hline hsized ⊢
    refine bind_eq_ok_iff.2 ⟨_, hline, bind_eq_ok_iff.2 ⟨_, readLength_eq_some_iff.2 hn, ?_⟩⟩
    exact bind_eq_ok_iff.2 ⟨_, hsized, rfl⟩
  | @bulkError line s hn =>
    have hline := takeLine_append hn.not_hasBreak (Bytes.ofString s ++ Bytes.crlf ++ rest)
    have hsized : takeSized (Bytes.ofString s).length (Bytes.ofString s ++ Bytes.crlf ++ rest) =
        .ok (Bytes.ofString s, rest) := takeSized_eq_ok_iff.2 ⟨rfl, rfl⟩
    rw [parseWithin_of_marker rest rfl hdepth]
    simp only [List.append_assoc] at hline hsized ⊢
    refine bind_eq_ok_iff.2 ⟨_, hline, bind_eq_ok_iff.2 ⟨_, readLength_eq_some_iff.2 hn, ?_⟩⟩
    exact bind_eq_ok_iff.2 ⟨_, hsized, bind_eq_ok_iff.2 ⟨s, readText_ofString s, rfl⟩⟩
  | @array line parts hn _ ih =>
    have hline := takeLine_append hn.not_hasBreak (parts.flatMap (·.1) ++ rest)
    have hshorter : ∀ part ∈ parts, part.1.length ≤ depth - 1 := by
      intro part hpart
      have hsub : part.1.Sublist (parts.flatMap (·.1)) := by
        rw [List.flatMap_def]
        exact List.sublist_flatten_of_mem (List.mem_map_of_mem hpart)
      have hle := hsub.length_le
      simp only [List.length_cons, List.length_append] at hdepth
      omega
    have hall := parseAll_of_parts (fun part hpart => ih part hpart (hshorter part hpart)) rest
    rw [parseWithin_of_marker rest rfl hdepth]
    simp only [List.append_assoc] at hline ⊢
    refine bind_eq_ok_iff.2 ⟨_, hline, bind_eq_ok_iff.2 ⟨_, readLength_eq_some_iff.2 hn, ?_⟩⟩
    exact bind_eq_ok_iff.2 ⟨_, hall, rfl⟩
  | @nullBulk line hn =>
    have hline := takeLine_append hn.not_hasBreak rest
    rw [parseWithin_of_marker rest rfl hdepth]
    exact bind_eq_ok_iff.2 ⟨_, hline, bind_eq_ok_iff.2 ⟨none, readLength_eq_none_iff.2 hn, rfl⟩⟩
  | @nullArray line hn =>
    have hline := takeLine_append hn.not_hasBreak rest
    rw [parseWithin_of_marker rest rfl hdepth]
    exact bind_eq_ok_iff.2 ⟨_, hline, bind_eq_ok_iff.2 ⟨none, readLength_eq_none_iff.2 hn, rfl⟩⟩
  | @nullError line hn =>
    have hline := takeLine_append hn.not_hasBreak rest
    rw [parseWithin_of_marker rest rfl hdepth]
    exact bind_eq_ok_iff.2 ⟨_, hline, bind_eq_ok_iff.2 ⟨none, readLength_eq_none_iff.2 hn, rfl⟩⟩
  | @null line hbreak =>
    have hline := takeLine_append hbreak rest
    rw [parseWithin_of_marker rest rfl hdepth]
    exact bind_eq_ok_iff.2 ⟨_, hline, rfl⟩

theorem parse_eq_ok_iff {f : Frame} :
    parse b = .ok (f, after) ↔ ∃ p, b = p ++ after ∧ Denotes p f := by
  constructor
  · exact denotes_of_parseWithin
  · rintro ⟨p, rfl, hf⟩
    exact parseWithin_of_denotes hf (by simp) after

/-- A byte string begins with one denotation at most. -/
theorem eq_of_denotes {p q rest rest' : Bytes} {f g : Frame} (hp : Denotes p f) (hq : Denotes q g)
    (h : p ++ rest = q ++ rest') : p = q ∧ f = g := by
  have hf : parse (p ++ rest) = .ok (f, rest) := parse_eq_ok_iff.2 ⟨p, rfl, hp⟩
  have hg : parse (p ++ rest) = .ok (g, rest') := parse_eq_ok_iff.2 ⟨q, h, hq⟩
  rw [hf] at hg
  cases hg
  exact ⟨List.append_cancel_right h, rfl⟩

end RespStore.Frame
