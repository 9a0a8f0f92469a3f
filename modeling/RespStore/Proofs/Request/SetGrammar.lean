import RespStore.Proofs.Request.Words
import RespStore.Proofs.Request.Yields

/-! The grammar of the options of SET: groups of one or two arguments, in any order. -/
namespace RespStore

inductive SetOption where
  | nx
  | xx
  | keepttl
  | get
  | ex (seconds : Int64)
  | px (millis : Int64)
  deriving DecidableEq, Repr

namespace SetOption

def condition? : SetOption → Option SetCondition
  | nx => some .ifAbsent
  | xx => some .ifPresent
  | _ => none

def expiry? : SetOption → Option SetExpiry
  | keepttl => some .keep
  | ex seconds => some (.ttl (1000 * seconds.toInt).toNat)
  | px millis => some (.ttl millis.toInt.toNat)
  | _ => none

inductive Written : SetOption → List Frame → Prop
  | nx {word : Frame} (h : word.Spells "NX") : Written nx [word]
  | xx {word : Frame} (h : word.Spells "XX") : Written xx [word]
  | keepttl {word : Frame} (h : word.Spells "KEEPTTL") : Written keepttl [word]
  | get {word : Frame} (h : word.Spells "GET") : Written get [word]
  | ex {word amount : Frame} {seconds : Int64} (h : word.Spells "EX")
      (hamount : amount.States seconds) (hpos : 1 ≤ seconds.toInt)
      (hmax : 1000 * seconds.toInt ≤ 2 ^ 63 - 1) : Written (ex seconds) [word, amount]
  | px {word amount : Frame} {millis : Int64} (h : word.Spells "PX")
      (hamount : amount.States millis) (hpos : 1 ≤ millis.toInt) :
      Written (px millis) [word, amount]

/-- At most one option states a condition, and at most one an expiry. -/
structure Compatible (options : List SetOption) : Prop where
  condition : (options.filterMap condition?).length ≤ 1
  expiry : (options.filterMap expiry?).length ≤ 1

structure Group where
  option : SetOption
  frames : List Frame
  written : option.Written frames

theorem Group.length_frames_pos (g : Group) : 0 < g.frames.length := by
  obtain ⟨option, frames, written⟩ := g
  cases written <;> simp

end SetOption

namespace SetOptions

open SetOption

/-- What options say, of which only the first condition and the first expiry count. -/
def ofList (options : List SetOption) : SetOptions where
  condition := (options.filterMap condition?).head?
  expiry := (options.filterMap expiry?).head?
  get := options.contains .get

/-- Some values of one kind, and those that options add to them, are one value at most. -/
def Fills {α : Type} (f : SetOption → Option α) (before : Option α) (options : List SetOption)
    (after : Option α) : Prop :=
  before.toList ++ options.filterMap f = after.toList

namespace Fills

variable {α : Type} {f : SetOption → Option α} {before after : Option α}
  {option : SetOption} {options options' : List SetOption}

theorem cons_iff : Fills f before (option :: options) after ↔
    ∃ middle, Fills f before [option] middle ∧ Fills f middle options after := by
  unfold Fills
  rw [show option :: options = [option] ++ options from rfl, List.filterMap_append,
    ← List.append_assoc]
  constructor
  · intro h
    refine ⟨(before.toList ++ [option].filterMap f).head?, ?_⟩
    have hlength := congrArg List.length h
    rw [List.length_append] at hlength
    have hafter : after.toList.length ≤ 1 := Option.length_toList_le
    generalize before.toList ++ [option].filterMap f = found at *
    rcases found with _ | ⟨a, _ | ⟨b, rest⟩⟩
    · exact ⟨rfl, h⟩
    · exact ⟨rfl, h⟩
    · simp only [List.length_cons] at hlength
      omega
  · rintro ⟨middle, hfirst, hrest⟩
    rw [hfirst, hrest]

theorem perm (h : Fills f none options after) (hperm : options.Perm options') :
    Fills f none options' after := by
  have hfilter := hperm.filterMap f
  unfold Fills at h ⊢
  rw [Option.toList_none, List.nil_append] at h ⊢
  rw [h] at hfilter
  cases after with
  | none => exact hfilter.nil_eq.symm
  | some a => exact (List.perm_singleton.1 hfilter.symm)

theorem none_iff : Fills f none options after ↔
    (options.filterMap f).length ≤ 1 ∧ after = (options.filterMap f).head? := by
  unfold Fills
  rw [Option.toList_none, List.nil_append]
  constructor
  · intro h
    rw [h]
    exact ⟨Option.length_toList_le, Option.head?_toList.symm⟩
  · rintro ⟨hlength, rfl⟩
    generalize options.filterMap f = found at *
    rcases found with _ | ⟨a, _ | ⟨b, rest⟩⟩
    · rfl
    · rfl
    · simp only [List.length_cons] at hlength
      omega

theorem nil_iff : Fills f before [] after ↔ after = before := by
  unfold Fills
  cases before <;> cases after <;> simp [eq_comm]

theorem singleton_of_none (h : f option = none) :
    Fills f before [option] after ↔ after = before := by
  rw [← nil_iff (f := f)]
  unfold Fills
  rw [List.filterMap_cons_none h]

theorem singleton_of_some {a : α} (h : f option = some a) :
    Fills f before [option] after ↔ before = none ∧ after = some a := by
  unfold Fills
  rw [List.filterMap_cons_some h, List.filterMap_nil]
  cases before with
  | none => cases after <;> simp [eq_comm]
  | some b => cases after <;> simp

end Fills

attribute [ext] SetOptions

/-- The options that are left once further ones are read, at most one of each kind. -/
structure Gathers (o : SetOptions) (options : List SetOption) (o' : SetOptions) : Prop where
  condition : Fills condition? o.condition options o'.condition
  expiry : Fills expiry? o.expiry options o'.expiry
  get : o'.get = (o.get || options.contains .get)

namespace Gathers

variable {o o' : SetOptions} {option : SetOption} {options options' : List SetOption}

theorem nil_iff : Gathers o [] o' ↔ o' = o := by
  constructor
  · rintro ⟨hcondition, hexpiry, hget⟩
    have hcondition' := Fills.nil_iff.1 hcondition
    have hexpiry' := Fills.nil_iff.1 hexpiry
    have hget' : o'.get = o.get := hget.trans (Bool.or_false _)
    exact SetOptions.ext hcondition' hexpiry' hget'
  · rintro rfl
    exact ⟨Fills.nil_iff.2 rfl, Fills.nil_iff.2 rfl, (Bool.or_false _).symm⟩

theorem cons_iff : Gathers o (option :: options) o' ↔
    ∃ middle, Gathers o [option] middle ∧ Gathers middle options o' := by
  constructor
  · rintro ⟨hcondition, hexpiry, hget⟩
    obtain ⟨condition, hcondition, hconditions⟩ := Fills.cons_iff.1 hcondition
    obtain ⟨expiry, hexpiry, hexpiries⟩ := Fills.cons_iff.1 hexpiry
    refine ⟨⟨condition, expiry, o.get || [option].contains .get⟩,
      ⟨hcondition, hexpiry, rfl⟩, ⟨hconditions, hexpiries, ?_⟩⟩
    rw [hget]
    simp [Bool.or_assoc]
  · rintro ⟨middle, hfirst, hrest⟩
    constructor
    · exact Fills.cons_iff.2 ⟨_, hfirst.condition, hrest.condition⟩
    · exact Fills.cons_iff.2 ⟨_, hfirst.expiry, hrest.expiry⟩
    · rw [hrest.get, hfirst.get]
      simp [Bool.or_assoc]

theorem empty_iff : Gathers {} options o' ↔ Compatible options ∧ o' = ofList options := by
  constructor
  · rintro ⟨hcondition, hexpiry, hget⟩
    obtain ⟨hconditions, hcondition⟩ := Fills.none_iff.1 hcondition
    obtain ⟨hexpiries, hexpiry⟩ := Fills.none_iff.1 hexpiry
    refine ⟨⟨hconditions, hexpiries⟩, ?_⟩
    exact SetOptions.ext hcondition hexpiry hget
  · rintro ⟨⟨hconditions, hexpiries⟩, rfl⟩
    exact ⟨Fills.none_iff.2 ⟨hconditions, rfl⟩, Fills.none_iff.2 ⟨hexpiries, rfl⟩, rfl⟩

theorem condition_iff (option : SetOption) {c : SetCondition}
    (hcondition : option.condition? = some c) (hexpiry : option.expiry? = none)
    (hget : option ≠ .get) :
    Gathers o [option] o' ↔ o.condition = none ∧ o' = { o with condition := some c } := by
  constructor
  · intro h
    obtain ⟨hnone, hc⟩ := (Fills.singleton_of_some hcondition).1 h.condition
    have hget' := h.get
    simp [hget.symm] at hget'
    exact ⟨hnone, SetOptions.ext hc ((Fills.singleton_of_none hexpiry).1 h.expiry) hget'⟩
  · rintro ⟨hnone, rfl⟩
    constructor
    · exact (Fills.singleton_of_some hcondition).2 ⟨hnone, rfl⟩
    · exact (Fills.singleton_of_none hexpiry).2 rfl
    · simp [hget.symm]

theorem expiry_iff (option : SetOption) {e : SetExpiry} (hexpiry : option.expiry? = some e)
    (hcondition : option.condition? = none) (hget : option ≠ .get) :
    Gathers o [option] o' ↔ o.expiry = none ∧ o' = { o with expiry := some e } := by
  constructor
  · intro h
    obtain ⟨hnone, he⟩ := (Fills.singleton_of_some hexpiry).1 h.expiry
    have hget' := h.get
    simp [hget.symm] at hget'
    exact ⟨hnone, SetOptions.ext ((Fills.singleton_of_none hcondition).1 h.condition) he hget'⟩
  · rintro ⟨hnone, rfl⟩
    constructor
    · exact (Fills.singleton_of_none hcondition).2 rfl
    · exact (Fills.singleton_of_some hexpiry).2 ⟨hnone, rfl⟩
    · simp [hget.symm]

theorem get_iff : Gathers o [.get] o' ↔ o' = { o with get := true } := by
  constructor
  · intro h
    have hget := h.get
    simp at hget
    exact SetOptions.ext ((Fills.singleton_of_none rfl).1 h.condition)
      ((Fills.singleton_of_none rfl).1 h.expiry) hget
  · rintro rfl
    constructor
    · exact (Fills.singleton_of_none rfl).2 rfl
    · exact (Fills.singleton_of_none rfl).2 rfl
    · simp

theorem perm (h : Gathers {} options o') (hperm : options.Perm options') :
    Gathers {} options' o' :=
  ⟨h.condition.perm hperm, h.expiry.perm hperm, h.get.trans (by rw [hperm.contains_eq])⟩

end Gathers

variable {o o' : SetOptions} {frame : Frame} {rest : List Frame}

theorem keyword_words_iff {word : SetWord} :
    frame.keyword words = .ok word ↔ ∃ spelling, (spelling, word) ∈ words ∧ frame.Spells spelling :=
  Frame.keyword_eq_ok_iff (by decide +kernel) (by decide +kernel)

theorem guard_eq_ok_iff {α β : Type} {seen : Option α} {e : RequestError}
    {x : Except RequestError β} {b : β} :
    (if seen.isSome then .error e else x) = .ok b ↔ seen = none ∧ x = .ok b := by
  cases seen <;> simp

theorem keyword_of_spells (spelling : String) (word : SetWord) (hmem : (spelling, word) ∈ words)
    (h : frame.Spells spelling) : frame.keyword words = .ok word :=
  keyword_words_iff.2 ⟨spelling, hmem, h⟩

/-- A group of arguments is read as the option it writes, unless there is one of its kind. -/
theorem read_append (g : Group) : o.read (g.frames ++ rest) = .ok o' ↔
    ∃ middle, Gathers o [g.option] middle ∧ middle.read rest = .ok o' := by
  obtain ⟨option, frames, written⟩ := g
  cases written with
  | nx h =>
    have hword := keyword_of_spells "NX" .nx (by decide) h
    simp only [Gathers.condition_iff .nx rfl rfl nofun, and_assoc, exists_and_left,
      exists_eq_left, List.cons_append, List.nil_append]
    rw [read.eq_def]
    simp only [hword, bind, Except.bind]
    exact guard_eq_ok_iff
  | xx h =>
    have hword := keyword_of_spells "XX" .xx (by decide) h
    simp only [Gathers.condition_iff .xx rfl rfl nofun, and_assoc, exists_and_left,
      exists_eq_left, List.cons_append, List.nil_append]
    rw [read.eq_def]
    simp only [hword, bind, Except.bind]
    exact guard_eq_ok_iff
  | keepttl h =>
    have hword := keyword_of_spells "KEEPTTL" .keepttl (by decide) h
    simp only [Gathers.expiry_iff .keepttl rfl rfl nofun, and_assoc, exists_and_left,
      exists_eq_left, List.cons_append, List.nil_append]
    rw [read.eq_def]
    simp only [hword, bind, Except.bind]
    exact guard_eq_ok_iff
  | get h =>
    have hword := keyword_of_spells "GET" .get (by decide) h
    simp only [Gathers.get_iff, exists_eq_left, List.cons_append, List.nil_append]
    rw [read.eq_def]
    simp only [hword, bind, Except.bind]
  | @ex word amount seconds h hamount hpos hmax =>
    have hword := keyword_of_spells "EX" .ex (by decide) h
    -- In milliseconds the amount still has to be a number of 64 bits.
    have httl : Reader.ttlOf "set" 1000 seconds = .ok (1000 * seconds.toInt).toNat :=
      Reader.ttlOf_eq_ok_iff.2 (by omega)
    simp only [Gathers.expiry_iff (.ex seconds) rfl rfl nofun, and_assoc,
      exists_and_left, exists_eq_left, List.cons_append, List.nil_append]
    rw [read.eq_def]
    simp only [hword, Frame.int64_eq_ok_iff.2 hamount, httl, bind, Except.bind]
    exact guard_eq_ok_iff
  | @px word amount millis h hamount hpos =>
    have hword := keyword_of_spells "PX" .px (by decide) h
    have hmax := millis.toInt_lt
    have httl : Reader.ttlOf "set" 1 millis = .ok millis.toInt.toNat :=
      Reader.ttlOf_eq_ok_iff.2 (by omega)
    simp only [Gathers.expiry_iff (.px millis) rfl rfl nofun, and_assoc,
      exists_and_left, exists_eq_left, List.cons_append, List.nil_append]
    rw [read.eq_def]
    simp only [hword, Frame.int64_eq_ok_iff.2 hamount, httl, bind, Except.bind]
    exact guard_eq_ok_iff

/-- What is read first is a group of arguments that writes an option. -/
theorem exists_group_of_read (h : o.read (frame :: rest) = .ok o') :
    ∃ (g : Group) (left : List Frame), frame :: rest = g.frames ++ left := by
  unfold read at h
  obtain ⟨word, hword, h⟩ := bind_eq_ok_iff.1 h
  obtain ⟨spelling, hmem, hspells⟩ := keyword_words_iff.1 hword
  simp only [words, List.mem_cons, Prod.mk.injEq, List.not_mem_nil, or_false] at hmem
  have hamount {unit ttl : Nat} {n : Frame} {amount : Int64} (hn : n.int64 = .ok amount)
      (httl : Reader.ttlOf "set" unit amount = .ok ttl) :
      n.States amount ∧ 1 ≤ unit * amount.toInt ∧ unit * amount.toInt ≤ 2 ^ 63 - 1 := by
    obtain ⟨hpos, hmax, htotal⟩ := Reader.ttlOf_eq_ok_iff.1 httl
    rw [Int.mul_comm] at htotal
    exact ⟨Frame.int64_eq_ok_iff.1 hn, by omega, by omega⟩
  rcases hmem with ⟨rfl, rfl⟩ | ⟨rfl, rfl⟩ | ⟨rfl, rfl⟩ | ⟨rfl, rfl⟩ | ⟨rfl, rfl⟩ | ⟨rfl, rfl⟩
  · exact ⟨⟨.nx, [frame], .nx hspells⟩, rest, rfl⟩
  · exact ⟨⟨.xx, [frame], .xx hspells⟩, rest, rfl⟩
  · obtain ⟨-, h⟩ := guard_eq_ok_iff.1 h
    cases rest with
    | nil => cases h
    | cons n rest =>
      obtain ⟨amount, hn, h⟩ := bind_eq_ok_iff.1 h
      obtain ⟨ttl, httl, h⟩ := bind_eq_ok_iff.1 h
      obtain ⟨hstates, hpos, hmax⟩ := hamount hn httl
      exact ⟨⟨.ex amount, [frame, n], .ex hspells hstates (by omega) hmax⟩, rest, rfl⟩
  · obtain ⟨-, h⟩ := guard_eq_ok_iff.1 h
    cases rest with
    | nil => cases h
    | cons n rest =>
      obtain ⟨amount, hn, h⟩ := bind_eq_ok_iff.1 h
      obtain ⟨ttl, httl, h⟩ := bind_eq_ok_iff.1 h
      obtain ⟨hstates, hpos, hmax⟩ := hamount hn httl
      exact ⟨⟨.px amount, [frame, n], .px hspells hstates (by omega)⟩, rest, rfl⟩
  · exact ⟨⟨.keepttl, [frame], .keepttl hspells⟩, rest, rfl⟩
  · exact ⟨⟨.get, [frame], .get hspells⟩, rest, rfl⟩

/-- Whatever options are read, they are written in groups. By induction on the number of arguments,
of which every group takes one at least. -/
theorem exists_groups_of_read : ∀ (args : List Frame) (o : SetOptions), o.read args = .ok o' →
    ∃ groups : List Group, args = groups.flatMap (·.frames)
  | [], _, _ => ⟨[], rfl⟩
  | frame :: rest, o, h => by
    obtain ⟨g, left, hsplit⟩ := exists_group_of_read h
    rw [hsplit, read_append] at h
    obtain ⟨middle, -, hleft⟩ := h
    have hshorter : left.length < (frame :: rest).length := by
      have hframes := g.length_frames_pos
      rw [hsplit, List.length_append]
      omega
    obtain ⟨groups, hgroups⟩ := exists_groups_of_read left middle hleft
    exact ⟨g :: groups, by rw [hsplit, hgroups, List.flatMap_cons]⟩
termination_by args => args.length
decreasing_by exact hshorter

/-- Groups of arguments are read as the options they write, if these go together. -/
theorem read_groups (groups : List Group) : o.read (groups.flatMap (·.frames)) = .ok o' ↔
    Gathers o (groups.map (·.option)) o' := by
  induction groups generalizing o with
  | nil =>
    rw [List.map_nil, Gathers.nil_iff, List.flatMap_nil, read, Except.ok.injEq, eq_comm]
  | cons g groups ih =>
    rw [List.flatMap_cons, read_append, List.map_cons, Gathers.cons_iff]
    simp only [ih]

end SetOptions

namespace Command

open SetOption

theorem ofFrame_set_eq_ok_iff {name : Frame} (hname : readName name = .ok "set") {k v : Frame}
    {args : List Frame} {c : Command} : ofFrame (.array (name :: k :: v :: args)) = .ok c ↔
      ∃ key value o, k.bytes = .ok key ∧ v.bytes = .ok value ∧ SetOptions.read {} args = .ok o ∧
        c = .strings (.set key value o) := by
  rw [ofFrame_array hname rfl, Reader.run_eq_ok_iff]
  constructor
  · intro h
    obtain ⟨⟨command, left⟩, hcommand, heq⟩ := bind_eq_ok_iff.1 h
    obtain ⟨⟨key, afterKey⟩, hkey, hvalues⟩ := bind_eq_ok_iff.1 hcommand
    obtain ⟨⟨value, afterValue⟩, hvalue, hoptions⟩ := bind_eq_ok_iff.1 hvalues
    obtain ⟨⟨o, afterOptions⟩, ho, hpure⟩ := bind_eq_ok_iff.1 hoptions
    cases hpure
    cases heq
    have hk := Reader.next_cons_eq_ok_iff.1 hkey
    cases hk.2
    have hv := Reader.next_cons_eq_ok_iff.1 hvalue
    cases hv.2
    exact ⟨key, value, o, hk.1, hv.1, (Reader.all_eq_ok_iff.1 ho).1, rfl⟩
  · rintro ⟨key, value, o, hk, hv, ho, rfl⟩
    have hkey : Reader.bytes (k :: v :: args) = .ok (key, v :: args) :=
      Reader.next_cons_eq_ok_iff.2 ⟨hk, rfl⟩
    have hvalue : Reader.bytes (v :: args) = .ok (value, args) :=
      Reader.next_cons_eq_ok_iff.2 ⟨hv, rfl⟩
    have hoptions : Reader.all (SetOptions.read {}) args = .ok (o, []) :=
      Reader.all_eq_ok_iff.2 ⟨ho, rfl⟩
    refine bind_eq_ok_iff.2 ⟨(.set key value o, []), ?_, rfl⟩
    exact Reader.bind_eq_ok hkey (Reader.bind_eq_ok hvalue (Reader.bind_eq_ok hoptions rfl))

/-- SET takes options in groups, of which one states a condition and one an expiry at most, and
their order makes no difference. -/
theorem ofFrame_set_iff_groups {name : Frame} (hname : readName name = .ok "set") (k v : Frame)
    (args : List Frame) :
    (∀ c, ofFrame (.array (name :: k :: v :: args)) = .ok c ↔
      ∃ key value, k.bytes = .ok key ∧ v.bytes = .ok value ∧
        ∃ groups : List Group, args = groups.flatMap (·.frames) ∧
          Compatible (groups.map (·.option)) ∧
          c = .strings (.set key value (.ofList (groups.map (·.option))))) ∧
    ∀ groups groups' : List Group, args = groups.flatMap (·.frames) → groups.Perm groups' →
      ∀ c, ofFrame (.array (name :: k :: v :: args)) = .ok c →
        ofFrame (.array (name :: k :: v :: groups'.flatMap (·.frames))) = .ok c := by
  constructor
  · intro c
    rw [ofFrame_set_eq_ok_iff hname]
    constructor
    · rintro ⟨key, value, o, hkey, hvalue, ho, rfl⟩
      obtain ⟨groups, rfl⟩ := SetOptions.exists_groups_of_read args {} ho
      have hgathers := (SetOptions.read_groups groups).1 ho
      obtain ⟨hcompatible, rfl⟩ := SetOptions.Gathers.empty_iff.1 hgathers
      exact ⟨key, value, hkey, hvalue, groups, rfl, hcompatible, rfl⟩
    · rintro ⟨key, value, hkey, hvalue, groups, rfl, hcompatible, rfl⟩
      have hgathers := SetOptions.Gathers.empty_iff.2 ⟨hcompatible, rfl⟩
      exact ⟨key, value, _, hkey, hvalue, (SetOptions.read_groups groups).2 hgathers, rfl⟩
  · rintro groups groups' rfl hperm c hc
    obtain ⟨key, value, o, hkey, hvalue, ho, rfl⟩ := (ofFrame_set_eq_ok_iff hname).1 hc
    have hgathers := ((SetOptions.read_groups groups).1 ho).perm (hperm.map (·.option))
    exact (ofFrame_set_eq_ok_iff hname).2
      ⟨key, value, o, hkey, hvalue, (SetOptions.read_groups groups').2 hgathers, rfl⟩

theorem set_reads_nx_get_and_px_in_any_order :
    readName (.bulk (Bytes.ofString "sEt")) = .ok "set" ∧
      ofFrame (.array [.bulk (Bytes.ofString "sEt"), .simple "k", .bulk (Bytes.ofString "NX"),
          .simple "nX", .bulk (Bytes.ofString "GET"), .simple "px", .bulk (Bytes.ofString "+5")]) =
        .ok (.strings (.set (Bytes.ofString "k") (Bytes.ofString "NX")
          ⟨some .ifAbsent, some (.ttl 5), true⟩)) := by
  let nx : Group := ⟨.nx, [.simple "nX"], .nx ⟨_, rfl, by decide⟩⟩
  let get : Group := ⟨.get, [.bulk (Bytes.ofString "GET")], .get ⟨_, rfl, by decide⟩⟩
  have hfive : Frame.States (.bulk (Bytes.ofString "+5")) 5 :=
    .numeral rfl (Decimal.readInt64_eq_ok_iff.1 rfl)
  let px : Group := ⟨.px 5, [.simple "px", .bulk (Bytes.ofString "+5")],
    .px ⟨_, rfl, by decide⟩ hfive (by decide)⟩
  have hname : readName (.bulk (Bytes.ofString "sEt")) = .ok "set" := by
    rw [readName, Bytes.toString?_ofString]
    rfl
  have hset := ofFrame_set_iff_groups hname (.simple "k") (.bulk (Bytes.ofString "NX"))
    ([px, get, nx].flatMap (·.frames))
  have hcompatible : Compatible ([px, get, nx].map (·.option)) := ⟨Nat.le_refl 1, Nat.le_refl 1⟩
  have hread := (hset.1 _).2 ⟨_, _, rfl, rfl, [px, get, nx], rfl, hcompatible, rfl⟩
  have hperm : [px, get, nx].Perm [nx, get, px] := (List.reverse_perm _).symm
  exact ⟨hname, hset.2 [px, get, nx] [nx, get, px] rfl hperm _ hread⟩

end Command
end RespStore
