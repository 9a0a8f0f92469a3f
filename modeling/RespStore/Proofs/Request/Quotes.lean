import RespStore.Proofs.Request.Names

/-! Which requests are refused with a message of more than one line. -/
namespace RespStore

open Reader

theorem KeyCommand.reader?_names {name : String} {r : Reader KeyCommand}
    (h : reader? name = some r) : IsLine name ∧ r.NamesLine := by
  unfold reader? at h
  split at h <;> cases h
  all_goals refine ⟨isLine_of_not_mem (by decide), ?_⟩
  all_goals with_reducible repeat' first
    | exact .pure _
    | refine .bind ?_ fun _ => ?_
    | apply_rules [bytes_names, int64_names, text_names, remaining_names]

theorem SetOptions.read_names : ∀ (args : List Frame) (o : SetOptions), Names (o.read args)
  | [], o => .ok o
  | a :: rest, o => by
    have hset : IsLine "set" := isLine_of_not_mem (by decide)
    unfold read
    refine .bind (a.keyword_names words) fun word => ?_
    cases word with
    | nx | xx | keepttl =>
      simp only
      split
      · exact .error trivial
      · exact read_names rest _
    | get => exact read_names rest _
    | ex | px =>
      simp only
      split
      · exact .error trivial
      · split
        · exact .error trivial
        · next n rest =>
          exact .bind n.int64_names fun amount =>
            .bind (ttlOf_names hset _ amount) fun _ => read_names rest _

theorem StringCommand.bitRange_names : bitRange.NamesLine :=
  .bind int64_names fun _ => .bind int64_names fun _ =>
    .bind (.optional (keyword_names _)) fun _ => .pure _

theorem StringCommand.reader?_names {name : String} {r : Reader StringCommand}
    (h : reader? name = some r) : IsLine name ∧ r.NamesLine := by
  have hsetex : IsLine "setex" := isLine_of_not_mem (by decide)
  have hpsetex : IsLine "psetex" := isLine_of_not_mem (by decide)
  unfold reader? at h
  split at h <;> cases h
  all_goals refine ⟨isLine_of_not_mem (by decide), ?_⟩
  all_goals with_reducible repeat' first
    | exact .pure _
    | exact .all fun args => SetOptions.read_names args _
    | refine .bind ?_ fun _ => ?_
    | apply_rules [bytes_names, int64_names, float_names, remaining_names, pairs_names, bit_names,
        bitOffset_names, ttl_names, NamesLine.optional, bitRange_names]

theorem ListCommand.timeoutOf_names (data : Bytes) : Names (timeoutOf data) := by
  unfold timeoutOf
  split
  · exact .error trivial
  · split
    · exact .error trivial
    · split
      · exact .error trivial
      · exact .ok _

theorem ListCommand.keysAndTimeout_names : keysAndTimeout.NamesLine := by
  refine .bind remaining_names fun args => ?_
  split
  · exact .bind (fun rest => .bind (timeoutOf_names _) fun _ => .ok _) fun _ => .pure _
  · exact .throw trivial

theorem ListCommand.reader?_names {name : String} {r : Reader ListCommand}
    (h : reader? name = some r) : IsLine name ∧ r.NamesLine := by
  unfold reader? at h
  split at h <;> cases h
  all_goals refine ⟨isLine_of_not_mem (by decide), ?_⟩
  all_goals with_reducible repeat' first
    | exact .pure _
    | exact keysAndTimeout_names
    | refine .bind ?_ fun _ => ?_
    | apply_rules [bytes_names, int64_names, remaining_names, NamesLine.optional,
        elementCount_names]

theorem SetCommand.scanOptions_names : ∀ (args : List Frame) (pattern : Option String)
    (count : Option Nat), Names (scanOptions pattern count args)
  | [], pattern, count => .ok (pattern, count)
  | a :: rest, pattern, count => by
    unfold scanOptions
    refine .bind (a.keyword_names scanWords) fun word => ?_
    cases word with
    | pattern =>
      cases rest with
      | nil => exact .error trivial
      | cons p rest => exact .bind p.text_names fun text => scanOptions_names rest _ _
    | count =>
      cases rest with
      | nil => exact .error trivial
      | cons n rest =>
        refine .bind n.int64_names fun n => ?_
        split
        · exact .error trivial
        · exact scanOptions_names rest _ _

theorem SetCommand.scan_names : scan.NamesLine := by
  refine .bind bytes_names fun key => .bind ?_ fun _ =>
    .bind (.all fun args => scanOptions_names args none none) fun _ => .pure _
  refine .bind int64_names fun n => ?_
  split
  · exact .throw trivial
  · exact .pure _

theorem SetCommand.reader?_names {name : String} {r : Reader SetCommand}
    (h : reader? name = some r) : IsLine name ∧ r.NamesLine := by
  unfold reader? at h
  split at h <;> cases h
  all_goals refine ⟨isLine_of_not_mem (by decide), ?_⟩
  all_goals with_reducible repeat' first
    | exact .pure _
    | exact scan_names
    | refine .bind ?_ fun _ => ?_
    | apply_rules [bytes_names, remaining_names]

namespace SortedSetCommand

theorem scoredMembers_names : ∀ args : List Frame, Names (scoredMembers args)
  | [] => .error trivial
  | [score] => .bind score.float_names fun _ => .error trivial
  | [score, member] =>
    .bind score.float_names fun _ => .bind member.bytes_names fun _ => .ok _
  | score :: member :: a :: rest =>
    .bind score.float_names fun _ => .bind member.bytes_names fun _ =>
      .bind (scoredMembers_names (a :: rest)) fun _ => .ok _

theorem addOptions_names (key : Bytes) : ∀ (args : List Frame) (absent present changed : Bool),
    Names (addOptions key absent present changed args)
  | [], absent, present, changed => finish_names key absent present changed []
  | a :: rest, absent, present, changed => by
    unfold addOptions
    split
    · exact addOptions_names key rest _ _ _
    · exact addOptions_names key rest _ _ _
    · exact addOptions_names key rest _ _ _
    · exact .error trivial
    · exact finish_names key absent present changed (a :: rest)
where
  finish_names (key : Bytes) (absent present changed : Bool) (args : List Frame) :
      Names (addOptions.finish key absent present changed args) := by
    unfold addOptions.finish
    split
    · exact .error trivial
    · exact .bind (scoredMembers_names args) fun _ => .ok _

theorem withScores_names : withScores.NamesLine :=
  .bind (.optional (keyword_names _)) fun _ => .pure _

theorem rangeOptions_names : ∀ (args : List Frame) (scores : Bool) (limit : Option Limit),
    Names (rangeOptions scores limit args)
  | [], scores, limit => .ok (scores, limit)
  | a :: rest, scores, limit => by
    unfold rangeOptions
    refine .bind (a.keyword_names rangeWords) fun word => ?_
    cases word with
    | withScores => exact rangeOptions_names rest _ _
    | limit =>
      match rest with
      | [] => exact .error trivial
      | [offset] => exact .bind offset.int64_names fun _ => .error trivial
      | offset :: count :: rest =>
        exact .bind offset.int64_names fun _ => .bind count.int64_names fun _ =>
          rangeOptions_names rest _ _

theorem rangeByScore_names : rangeByScore.NamesLine :=
  .bind bytes_names fun _ => .bind scoreBound_names fun _ => .bind scoreBound_names fun _ =>
    .bind (.all fun args => rangeOptions_names args _ _) fun _ => .pure _

theorem reader?_names {name : String} {r : Reader SortedSetCommand}
    (h : reader? name = some r) : IsLine name ∧ r.NamesLine := by
  unfold reader? at h
  split at h <;> cases h
  all_goals refine ⟨isLine_of_not_mem (by decide), ?_⟩
  all_goals with_reducible repeat' first
    | exact .pure _
    | exact .all fun args => addOptions_names _ args _ _ _
    | exact rangeByScore_names
    | refine .bind ?_ fun _ => ?_
    | apply_rules [bytes_names, int64_names, remaining_names, scoreBound_names, withScores_names]

end SortedSetCommand

theorem HashCommand.reader?_names {name : String} {r : Reader HashCommand}
    (h : reader? name = some r) : IsLine name ∧ r.NamesLine := by
  unfold reader? at h
  split at h <;> cases h
  all_goals refine ⟨isLine_of_not_mem (by decide), ?_⟩
  all_goals with_reducible repeat' first
    | exact .pure _
    | refine .bind ?_ fun _ => ?_
    | apply_rules [bytes_names, remaining_names, pairs_names]

namespace ServerCommand

theorem client_names : client.NamesLine := by
  have hsetinfo : IsLine "client|setinfo" := isLine_of_not_mem (by decide)
  have hclient : IsLine "client" := isLine_of_not_mem (by decide)
  refine .bind text_names fun subcommand => ?_
  dsimp only
  split
  · exact .pure _
  · exact .pure _
  · refine .bind bytes_names fun name => ?_
    split
    · exact .pure _
    · exact .throw trivial
  · refine .bind text_names fun field => .bind bytes_names fun value => ?_
    split
    · exact .pure _
    · exact .pure _
    · exact .throw hsetinfo
  · exact .throw hclient

theorem database_names : database.NamesLine := by
  refine .bind int64_names fun index => ?_
  split
  · exact .pure _
  · exact .throw trivial

theorem reader?_names {name : String} {r : Reader ServerCommand}
    (h : reader? name = some r) : IsLine name ∧ r.NamesLine := by
  unfold reader? at h
  split at h <;> cases h
  all_goals refine ⟨isLine_of_not_mem (by decide), ?_⟩
  case h_6 =>
    exact .bind (.all fun args => .bind (.mapM Frame.text_names args) fun _ => .ok _)
      fun _ => .pure _
  all_goals with_reducible repeat' first
    | exact .pure _
    | exact client_names
    | exact database_names
    | refine .bind ?_ fun _ => ?_
    | apply_rules [bytes_names, NamesLine.optional, keyword_names]

end ServerCommand

theorem TransactionCommand.reader?_names {name : String} {r : Reader TransactionCommand}
    (h : reader? name = some r) : IsLine name ∧ r.NamesLine := by
  unfold reader? at h
  split at h <;> cases h
  all_goals exact ⟨isLine_of_not_mem (by decide), .pure _⟩

namespace Command

theorem reader?_names {name : String} {r : Reader Command} (h : reader? name = some r) :
    IsLine name ∧ r.NamesLine := by
  have hmap {α : Type} {f : α → Command} {found : Option (Reader α)}
      (hr : found.map (f <$> ·) = some r)
      (hnames : ∀ r', found = some r' → IsLine name ∧ r'.NamesLine) :
      IsLine name ∧ r.NamesLine := by
    obtain ⟨r', hr', rfl⟩ := Option.map_eq_some_iff.1 hr
    obtain ⟨hname, hr'⟩ := hnames r' hr'
    exact ⟨hname, hr'.map f⟩
  simp only [reader?, Option.orElse_eq_orElse, Option.orElse_eq_or, Option.or_eq_some_iff] at h
  rcases h with h | ⟨-, h | ⟨-, h | ⟨-, h | ⟨-, h | ⟨-, h | ⟨-, h | ⟨-, h⟩⟩⟩⟩⟩⟩⟩
  · exact hmap h fun _ => KeyCommand.reader?_names
  · exact hmap h fun _ => StringCommand.reader?_names
  · exact hmap h fun _ => ListCommand.reader?_names
  · exact hmap h fun _ => SetCommand.reader?_names
  · exact hmap h fun _ => SortedSetCommand.reader?_names
  · exact hmap h fun _ => HashCommand.reader?_names
  · exact hmap h fun _ => ServerCommand.reader?_names
  · exact hmap h fun _ => TransactionCommand.reader?_names

theorem readName_names (f : Frame) : Names (readName f) := by
  cases f with
  | simple text => exact .ok _
  | bulk data =>
    rw [readName]
    split
    · exact .ok _
    · exact .error trivial
  | _ => exact .error trivial

theorem ofArguments_names (args : List Frame) : Names (ofArguments args) := by
  cases args with
  | nil => exact .error trivial
  | cons first rest =>
    refine .bind (readName_names first) fun name => ?_
    split
    · exact .error trivial
    · next reader hreader =>
      obtain ⟨hname, hr⟩ := reader?_names hreader
      exact hr.run hname rest

/-- Whatever a request holds, the message that refuses it names commands on one line. -/
theorem ofFrame_names (request : Frame) : Names (ofFrame request) := by
  cases request with
  | array items => exact ofArguments_names _
  | _ => exact .error trivial

end Command
end RespStore
