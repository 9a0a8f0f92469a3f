import Mathlib.Data.List.Forall2
import RespStore.Command
import RespStore.Proofs.Request.Argument

/-! Simple and bulk strings are interchangeable in requests. -/
namespace RespStore

/-- What may take the place of a frame: that frame, or the bulk string of the bytes of a simple
one. -/
inductive Frame.Reframes : Frame → Frame → Prop
  | same (frame : Frame) : Reframes frame frame
  | bulk (text : String) : Reframes (.simple text) (.bulk (Bytes.ofString text))

theorem Frame.Reframes.asBulk_eq {frame frame' : Frame} (h : Reframes frame frame') :
    frame'.asBulk = frame.asBulk := by
  cases h with
  | same => rfl
  | bulk text => rfl

theorem Frame.map_asBulk_eq {frames frames' : List Frame}
    (h : List.Forall₂ Reframes frames frames') : frames'.map asBulk = frames.map asBulk := by
  induction h with
  | nil => rfl
  | cons hframe _ ih => rw [List.map_cons, List.map_cons, hframe.asBulk_eq, ih]

namespace Reader

variable {α β : Type}

/-- With its strings framed in bulk, a reader reads the same, and it leaves the same in bulk. -/
def IgnoresFraming (r : Reader α) : Prop :=
  ∀ args, r (args.map Frame.asBulk) =
    (r args).map fun read => (read.1, read.2.map Frame.asBulk)

namespace IgnoresFraming

theorem pure (a : α) : IgnoresFraming (Pure.pure a) := fun _ => rfl

theorem throw (e : RequestError) : IgnoresFraming (MonadExcept.throw e : Reader α) := fun _ => rfl

theorem lift (x : Except RequestError α) : IgnoresFraming (liftM x : Reader α) := by
  intro args
  cases x with
  | error e => rfl
  | ok a => rfl

theorem bind {r : Reader α} {next : α → Reader β} (h : r.IgnoresFraming)
    (hnext : ∀ a, (next a).IgnoresFraming) : IgnoresFraming (r >>= next) := by
  intro args
  have hbind (args : List Frame) :
      (r >>= next) args = r args >>= fun read => next read.1 read.2 := rfl
  rw [hbind, hbind, h args]
  cases r args with
  | error e => rfl
  | ok read => exact hnext read.1 read.2

theorem map {r : Reader α} (f : α → β) (h : r.IgnoresFraming) : IgnoresFraming (f <$> r) := by
  intro args
  have hmap (args : List Frame) : (f <$> r) args = r args >>= fun read => .ok (f read.1, read.2) :=
    rfl
  rw [hmap, hmap, h args]
  cases r args with
  | error e => rfl
  | ok read => rfl

theorem next {as : Frame → Except RequestError α} (h : ∀ frame, as frame.asBulk = as frame) :
    (Reader.next as).IgnoresFraming := by
  intro args
  cases args with
  | nil => rfl
  | cons frame rest =>
    simp only [Reader.next, List.map_cons, h]
    cases as frame with
    | error e => rfl
    | ok a => rfl

theorem optional {r : Reader α} (h : r.IgnoresFraming) : r.optional.IgnoresFraming := by
  intro args
  cases args with
  | nil => rfl
  | cons frame rest =>
    have hoptional (frame : Frame) (rest : List Frame) : r.optional (frame :: rest) =
        r (frame :: rest) >>= fun read => .ok (some read.1, read.2) := rfl
    rw [List.map_cons, hoptional, hoptional, ← List.map_cons, h]
    cases r (frame :: rest) with
    | error e => rfl
    | ok read => rfl

theorem all {read : List Frame → Except RequestError α}
    (h : ∀ args, read (args.map Frame.asBulk) = read args) : (Reader.all read).IgnoresFraming := by
  intro args
  simp only [Reader.all, h]
  cases read args with
  | error e => rfl
  | ok a => rfl

theorem run {r : Reader α} (h : r.IgnoresFraming) (command : String) (args : List Frame) :
    r.run command (args.map Frame.asBulk) = r.run command args := by
  unfold Reader.run
  rw [h args]
  rcases r args with e | ⟨a, _ | ⟨frame, rest⟩⟩
  · rfl
  · rfl
  · rfl

end IgnoresFraming

theorem mapM_asBulk {as : Frame → Except RequestError α} (h : ∀ frame, as frame.asBulk = as frame)
    (frames : List Frame) : (frames.map Frame.asBulk).mapM as = frames.mapM as := by
  induction frames with
  | nil => rfl
  | cons frame rest ih => rw [List.map_cons, List.mapM_cons, List.mapM_cons, h, ih]

theorem bytes_ignoresFraming : bytes.IgnoresFraming := .next Frame.bytes_asBulk

theorem text_ignoresFraming : text.IgnoresFraming := .next Frame.text_asBulk

theorem int64_ignoresFraming : int64.IgnoresFraming := .next Frame.int64_asBulk

theorem float_ignoresFraming : float.IgnoresFraming := .next Frame.float_asBulk

theorem keyword_ignoresFraming (words : List (String × α)) : (keyword words).IgnoresFraming :=
  .next fun frame => frame.keyword_asBulk words

theorem remaining_ignoresFraming : remaining.IgnoresFraming := by
  refine .all fun args => ?_
  cases args with
  | nil => rfl
  | cons frame rest => exact mapM_asBulk Frame.bytes_asBulk (frame :: rest)

theorem pairs_ignoresFraming : pairs.IgnoresFraming :=
  remaining_ignoresFraming.bind fun items => .lift (pairUp items)

theorem bitOffset_ignoresFraming : bitOffset.IgnoresFraming :=
  .next fun frame => by simp only [Frame.int64_asBulk]

theorem bit_ignoresFraming : bit.IgnoresFraming :=
  .next fun frame => by simp only [Frame.int64_asBulk]

theorem ttl_ignoresFraming (command : String) (millis : Nat) :
    (ttl command millis).IgnoresFraming :=
  int64_ignoresFraming.bind fun amount => .lift (ttlOf command millis amount)

theorem elementCount_ignoresFraming : elementCount.IgnoresFraming := by
  refine int64_ignoresFraming.bind fun n => ?_
  split
  · exact .pure _
  · exact .throw _

theorem scoreBound_ignoresFraming : scoreBound.IgnoresFraming := by
  refine text_ignoresFraming.bind fun text => ?_
  split
  · exact .pure _
  · exact .throw _

end Reader

open Reader

theorem KeyCommand.reader?_ignoresFraming {name : String} {r : Reader KeyCommand}
    (h : reader? name = some r) : r.IgnoresFraming := by
  unfold reader? at h
  split at h <;> cases h
  all_goals with_reducible repeat' first
    | exact .pure _
    | refine .bind ?_ fun _ => ?_
    | apply_rules [bytes_ignoresFraming, int64_ignoresFraming, text_ignoresFraming,
        remaining_ignoresFraming]

/-- Options are read as they are in bulk. By recursion on the arguments, of which an option takes
one or two. -/
theorem SetOptions.read_asBulk : ∀ (args : List Frame) (o : SetOptions),
    o.read (args.map Frame.asBulk) = o.read args
  | [], o => rfl
  | a :: rest, o => by
    have hrest (o : SetOptions) := read_asBulk rest o
    rw [List.map_cons]
    unfold read
    rw [Frame.keyword_asBulk]
    cases a.keyword words with
    | error e => rfl
    | ok word =>
      cases word with
      | nx | xx | keepttl | get => simp only [bind, Except.bind, hrest]
      | ex | px =>
        cases rest with
        | nil => rfl
        | cons n rest =>
          simp only [bind, Except.bind, List.map_cons, Frame.int64_asBulk, read_asBulk rest]

theorem StringCommand.bitRange_ignoresFraming : bitRange.IgnoresFraming := by
  refine int64_ignoresFraming.bind fun start => int64_ignoresFraming.bind fun stop => ?_
  exact (keyword_ignoresFraming _).optional.bind fun unit => .pure _

theorem StringCommand.reader?_ignoresFraming {name : String} {r : Reader StringCommand}
    (h : reader? name = some r) : r.IgnoresFraming := by
  unfold reader? at h
  split at h <;> cases h
  all_goals with_reducible repeat' first
    | exact .pure _
    | exact .all fun args => SetOptions.read_asBulk args _
    | refine .bind ?_ fun _ => ?_
    | apply_rules [bytes_ignoresFraming, int64_ignoresFraming, float_ignoresFraming,
        remaining_ignoresFraming, pairs_ignoresFraming, bit_ignoresFraming,
        bitOffset_ignoresFraming, ttl_ignoresFraming, IgnoresFraming.optional,
        bitRange_ignoresFraming]

theorem ListCommand.keysAndTimeout_ignoresFraming : keysAndTimeout.IgnoresFraming := by
  refine remaining_ignoresFraming.bind fun args => ?_
  split
  · exact (IgnoresFraming.lift (timeoutOf _)).bind fun timeout => .pure _
  · exact .throw _

theorem ListCommand.reader?_ignoresFraming {name : String} {r : Reader ListCommand}
    (h : reader? name = some r) : r.IgnoresFraming := by
  unfold reader? at h
  split at h <;> cases h
  all_goals with_reducible repeat' first
    | exact .pure _
    | exact keysAndTimeout_ignoresFraming
    | refine .bind ?_ fun _ => ?_
    | apply_rules [bytes_ignoresFraming, int64_ignoresFraming, remaining_ignoresFraming,
        IgnoresFraming.optional, elementCount_ignoresFraming]

theorem SetCommand.scanOptions_asBulk : ∀ (args : List Frame) (pattern : Option String)
    (count : Option Nat),
    scanOptions pattern count (args.map Frame.asBulk) = scanOptions pattern count args
  | [], pattern, count => rfl
  | a :: rest, pattern, count => by
    rw [List.map_cons]
    unfold scanOptions
    rw [Frame.keyword_asBulk]
    cases a.keyword scanWords with
    | error e => rfl
    | ok word =>
      cases rest with
      | nil => cases word <;> rfl
      | cons value rest =>
        have hrest (pattern : Option String) (count : Option Nat) :=
          scanOptions_asBulk rest pattern count
        cases word with
        | pattern => simp only [bind, Except.bind, List.map_cons, Frame.text_asBulk, hrest]
        | count => simp only [bind, Except.bind, List.map_cons, Frame.int64_asBulk, hrest]

theorem SetCommand.scan_ignoresFraming : scan.IgnoresFraming := by
  have hcursor : cursor.IgnoresFraming := by
    refine int64_ignoresFraming.bind fun n => ?_
    split
    · exact .throw _
    · exact .pure _
  refine bytes_ignoresFraming.bind fun key => hcursor.bind fun _ => ?_
  exact (IgnoresFraming.all fun args => scanOptions_asBulk args none none).bind fun _ => .pure _

theorem SetCommand.reader?_ignoresFraming {name : String} {r : Reader SetCommand}
    (h : reader? name = some r) : r.IgnoresFraming := by
  unfold reader? at h
  split at h <;> cases h
  all_goals with_reducible repeat' first
    | exact .pure _
    | exact scan_ignoresFraming
    | refine .bind ?_ fun _ => ?_
    | apply_rules [bytes_ignoresFraming, remaining_ignoresFraming]

namespace SortedSetCommand

theorem scoredMembers_asBulk : ∀ args : List Frame,
    scoredMembers (args.map Frame.asBulk) = scoredMembers args
  | [] => rfl
  | [score] => by simp only [scoredMembers, List.map_cons, List.map_nil, Frame.float_asBulk]
  | [score, member] => by
    simp only [scoredMembers, List.map_cons, List.map_nil, Frame.float_asBulk, Frame.bytes_asBulk]
  | score :: member :: a :: rest => by
    have hrest := scoredMembers_asBulk (a :: rest)
    rw [List.map_cons] at hrest
    simp only [scoredMembers, List.map_cons, Frame.float_asBulk, Frame.bytes_asBulk, hrest]

theorem addOptions_asBulk (key : Bytes) : ∀ (args : List Frame) (absent present changed : Bool),
    addOptions key absent present changed (args.map Frame.asBulk) =
      addOptions key absent present changed args
  | [], absent, present, changed => rfl
  | a :: rest, absent, present, changed => by
    have hrest (absent present changed : Bool) := addOptions_asBulk key rest absent present changed
    have hmembers := scoredMembers_asBulk (a :: rest)
    rw [List.map_cons] at hmembers ⊢
    unfold addOptions
    rw [Frame.keyword?_asBulk]
    cases a.keyword? addWords with
    | none => simp only [addOptions.finish, hmembers]
    | some word => cases word <;> simp only [hrest]

theorem withScores_ignoresFraming : withScores.IgnoresFraming :=
  (keyword_ignoresFraming _).optional.bind fun _ => .pure _

theorem rangeOptions_asBulk : ∀ (args : List Frame) (scores : Bool) (limit : Option Limit),
    rangeOptions scores limit (args.map Frame.asBulk) = rangeOptions scores limit args
  | [], scores, limit => rfl
  | a :: rest, scores, limit => by
    have hrest (scores : Bool) (limit : Option Limit) := rangeOptions_asBulk rest scores limit
    rw [List.map_cons]
    unfold rangeOptions
    rw [Frame.keyword_asBulk]
    cases a.keyword rangeWords with
    | error e => rfl
    | ok word =>
      cases word with
      | withScores => simp only [bind, Except.bind, hrest]
      | limit =>
        match rest with
        | [] => rfl
        | [offset] =>
          simp only [bind, Except.bind, List.map_cons, List.map_nil, Frame.int64_asBulk]
        | offset :: count :: rest =>
          simp only [bind, Except.bind, List.map_cons, Frame.int64_asBulk,
            rangeOptions_asBulk rest]

theorem rangeByScore_ignoresFraming : rangeByScore.IgnoresFraming := by
  refine bytes_ignoresFraming.bind fun key => ?_
  refine scoreBound_ignoresFraming.bind fun min => scoreBound_ignoresFraming.bind fun max => ?_
  exact (IgnoresFraming.all fun args => rangeOptions_asBulk args _ _).bind fun _ => .pure _

theorem reader?_ignoresFraming {name : String} {r : Reader SortedSetCommand}
    (h : reader? name = some r) : r.IgnoresFraming := by
  unfold reader? at h
  split at h <;> cases h
  all_goals with_reducible repeat' first
    | exact .pure _
    | exact .all fun args => addOptions_asBulk _ args _ _ _
    | exact rangeByScore_ignoresFraming
    | refine .bind ?_ fun _ => ?_
    | apply_rules [bytes_ignoresFraming, int64_ignoresFraming, remaining_ignoresFraming,
        scoreBound_ignoresFraming, withScores_ignoresFraming]

end SortedSetCommand

theorem HashCommand.reader?_ignoresFraming {name : String} {r : Reader HashCommand}
    (h : reader? name = some r) : r.IgnoresFraming := by
  unfold reader? at h
  split at h <;> cases h
  all_goals with_reducible repeat' first
    | exact .pure _
    | refine .bind ?_ fun _ => ?_
    | apply_rules [bytes_ignoresFraming, remaining_ignoresFraming, pairs_ignoresFraming]

namespace ServerCommand

theorem client_ignoresFraming : client.IgnoresFraming := by
  refine text_ignoresFraming.bind fun subcommand => ?_
  dsimp only
  split
  · exact .pure _
  · exact .pure _
  · refine bytes_ignoresFraming.bind fun name => ?_
    split
    · exact .pure _
    · exact .throw _
  · refine text_ignoresFraming.bind fun field => bytes_ignoresFraming.bind fun value => ?_
    split
    · exact .pure _
    · exact .pure _
    · exact .throw _
  · exact .throw _

theorem database_ignoresFraming : database.IgnoresFraming := by
  refine int64_ignoresFraming.bind fun index => ?_
  split
  · exact .pure _
  · exact .throw _

theorem sections_ignoresFraming : (Reader.all fun args => do
    return (← args.mapM Frame.text).map Text.lowercase).IgnoresFraming :=
  .all fun args => by rw [mapM_asBulk Frame.text_asBulk]

theorem reader?_ignoresFraming {name : String} {r : Reader ServerCommand}
    (h : reader? name = some r) : r.IgnoresFraming := by
  unfold reader? at h
  split at h <;> cases h
  all_goals with_reducible repeat' first
    | exact .pure _
    | exact client_ignoresFraming
    | exact database_ignoresFraming
    | exact sections_ignoresFraming
    | refine .bind ?_ fun _ => ?_
    | apply_rules [bytes_ignoresFraming, IgnoresFraming.optional, keyword_ignoresFraming]

end ServerCommand

theorem TransactionCommand.reader?_ignoresFraming {name : String} {r : Reader TransactionCommand}
    (h : reader? name = some r) : r.IgnoresFraming := by
  unfold reader? at h
  split at h <;> cases h
  all_goals exact .pure _

namespace Command

theorem reader?_ignoresFraming {name : String} {r : Reader Command} (h : reader? name = some r) :
    r.IgnoresFraming := by
  have hmap {α : Type} {f : α → Command} {found : Option (Reader α)}
      (hr : found.map (f <$> ·) = some r)
      (hfound : ∀ r', found = some r' → r'.IgnoresFraming) : r.IgnoresFraming := by
    obtain ⟨r', hr', rfl⟩ := Option.map_eq_some_iff.1 hr
    exact (hfound r' hr').map f
  simp only [reader?, Option.orElse_eq_orElse, Option.orElse_eq_or, Option.or_eq_some_iff] at h
  rcases h with h | ⟨-, h | ⟨-, h | ⟨-, h | ⟨-, h | ⟨-, h | ⟨-, h | ⟨-, h⟩⟩⟩⟩⟩⟩⟩
  · exact hmap h fun _ => KeyCommand.reader?_ignoresFraming
  · exact hmap h fun _ => StringCommand.reader?_ignoresFraming
  · exact hmap h fun _ => ListCommand.reader?_ignoresFraming
  · exact hmap h fun _ => SetCommand.reader?_ignoresFraming
  · exact hmap h fun _ => SortedSetCommand.reader?_ignoresFraming
  · exact hmap h fun _ => HashCommand.reader?_ignoresFraming
  · exact hmap h fun _ => ServerCommand.reader?_ignoresFraming
  · exact hmap h fun _ => TransactionCommand.reader?_ignoresFraming

theorem readName_asBulk (frame : Frame) : readName frame.asBulk = readName frame := by
  cases frame with
  | simple text => simp [Frame.asBulk, readName]
  | _ => rfl

theorem ofArguments_asBulk (args : List Frame) :
    ofArguments (args.map Frame.asBulk) = ofArguments args := by
  cases args with
  | nil => rfl
  | cons first rest =>
    rw [List.map_cons]
    unfold ofArguments
    dsimp only
    rw [readName_asBulk]
    cases readName first with
    | error e => rfl
    | ok name =>
      cases hreader : reader? name with
      | none => simp only [bind, Except.bind, hreader]
      | some reader =>
        have hrun := (reader?_ignoresFraming hreader).run name rest
        simp only [bind, Except.bind, hreader, hrun]

/-- A request says the same with any of its simple strings put in bulk, the name of the command and
its arguments alike: the same command is read from it, or it is refused for the same reason. -/
theorem ofFrame_eq_of_reframed {items items' : List Frame}
    (h : List.Forall₂ Frame.Reframes items items') :
    ofFrame (.array items') = ofFrame (.array items) :=
  calc ofArguments items'
      = ofArguments (items'.map Frame.asBulk) := (ofArguments_asBulk items').symm
    _ = ofArguments (items.map Frame.asBulk) := by rw [Frame.map_asBulk_eq h]
    _ = ofArguments items := ofArguments_asBulk items

/-- A request with two of its words in bulk, and one that is refused for an array whose own string
stays simple. -/
theorem set_read_half_in_bulk :
    let bulk (word : String) : Frame := .bulk (Bytes.ofString word)
    let items : List Frame :=
      [.simple "Set", .simple "k", .bulk [255], .simple "px", .integer 5, .simple "get"]
    let items' : List Frame := [bulk "Set", .simple "k", .bulk [255], bulk "px", .integer 5,
      .simple "get"]
    let refused (first : Frame) : Frame := .array [first, .simple "k", .array [.simple "v"]]
    List.Forall₂ Frame.Reframes items items' ∧ ofFrame (.array items') = ofFrame (.array items) ∧
      ofFrame (.array items) =
        .ok (.strings (.set [107] [255] { expiry := some (.ttl 5), get := true })) ∧
      ofFrame (refused (bulk "SET")) = ofFrame (refused (.simple "SET")) ∧
      ofFrame (refused (.simple "SET")) = .error (.unexpected .string (.array [.simple "v"])) := by
  intro bulk items items' refused
  have hitems : List.Forall₂ Frame.Reframes items items' :=
    .cons (.bulk "Set") (.cons (.same _) (.cons (.same _) (.cons (.bulk "px")
      (.cons (.same _) (.cons (.same _) .nil)))))
  have hrefused : List.Forall₂ Frame.Reframes
      [.simple "SET", .simple "k", .array [.simple "v"]]
      [bulk "SET", .simple "k", .array [.simple "v"]] :=
    .cons (.bulk "SET") (.cons (.same _) (.cons (.same _) .nil))
  exact ⟨hitems, ofFrame_eq_of_reframed hitems, by decide +kernel, ofFrame_eq_of_reframed hrefused,
    by decide +kernel⟩

end Command
end RespStore
