import RespStore.Command
import RespStore.Proofs.Frame.Line

/-! What error messages to requests are made of. A client's own text is quoted in three kinds only.
-/
namespace RespStore

namespace RequestError

def quoted? : RequestError → Option String
  | .unexpected _ actual => some actual.display
  | .unknownCommand name => some name
  | .unknownSubcommand argument _ => some argument
  | _ => none

def NamesLine : RequestError → Prop
  | .wrongArity command | .invalidExpireTime command | .unknownSubcommand _ command =>
    IsLine command
  | _ => True

theorem isLine_message_unexpected (expected : Expected) (actual : Frame) :
    IsLine (unexpected expected actual).message ↔ IsLine actual.display := by
  have hbefore : IsLine ("ERR Protocol error: expected " ++ expected.name ++ ", got ") := by
    refine isLine_of_not_mem ?_
    cases expected <;> decide
  have hlast : (Bytes.ofString ("ERR Protocol error: expected " ++ expected.name ++
      ", got ")).getLast? ≠ some 13 := by
    cases expected <;> decide
  have haround := isLine_around_iff (s := actual.display) hbefore
    (isLine_of_not_mem (s := "") (by decide)) hlast (by decide)
  rwa [String.append_empty] at haround

theorem isLine_message_unknownCommand (name : String) :
    IsLine (unknownCommand name).message ↔ IsLine name :=
  isLine_around_iff (isLine_of_not_mem (by decide)) (isLine_of_not_mem (by decide)) (by decide)
    (by decide)

theorem isLine_message_wrongArity (command : String) :
    IsLine (wrongArity command).message ↔ IsLine command :=
  isLine_around_iff (isLine_of_not_mem (by decide)) (isLine_of_not_mem (by decide)) (by decide)
    (by decide)

theorem isLine_message_invalidExpireTime (command : String) :
    IsLine (invalidExpireTime command).message ↔ IsLine command :=
  isLine_around_iff (isLine_of_not_mem (by decide)) (isLine_of_not_mem (by decide)) (by decide)
    (by decide)

theorem isLine_message_unknownSubcommand {command : String} (h : IsLine command)
    (argument : String) : IsLine (unknownSubcommand argument command).message ↔ IsLine argument := by
  have hafter : IsLine ("' for '" ++ command ++ "'") :=
    (isLine_around_iff (isLine_of_not_mem (by decide)) (isLine_of_not_mem (by decide)) (by decide)
      (by decide)).2 h
  have hhead : (Bytes.ofString ("' for '" ++ command ++ "'")).head? ≠ some 10 := by
    have hquote : (Bytes.ofString "' for '").head? = some 39 := by decide
    rw [String.append_assoc, Bytes.ofString_append, List.head?_append, hquote]
    simp
  have hbefore : IsLine "ERR unknown subcommand '" := isLine_of_not_mem (by decide)
  have hlast : (Bytes.ofString "ERR unknown subcommand '").getLast? ≠ some 13 := by decide
  have hassoc (x y z w : String) : x ++ y ++ z ++ w = x ++ (y ++ z ++ w) := by
    simp only [String.append_assoc]
  have haround := isLine_around_iff (s := argument) hbefore hafter hlast hhead
  rw [← hassoc] at haround
  exact haround

/-- A message has as many lines as what it quotes. -/
theorem isLine_message_iff {e : RequestError} (h : e.NamesLine) :
    IsLine e.message ↔ ∀ s ∈ e.quoted?, IsLine s := by
  cases e with
  | unexpected expected actual => simp [quoted?, isLine_message_unexpected]
  | unknownCommand name => simp [quoted?, isLine_message_unknownCommand]
  | unknownSubcommand argument command =>
    simp [quoted?, isLine_message_unknownSubcommand h]
  | wrongArity command => exact ⟨fun _ => nofun, fun _ => (isLine_message_wrongArity command).2 h⟩
  | invalidExpireTime command =>
    exact ⟨fun _ => nofun, fun _ => (isLine_message_invalidExpireTime command).2 h⟩
  | _ => exact ⟨fun _ => nofun, fun _ => isLine_of_not_mem (by decide)⟩

end RequestError

def Names {α : Type} (x : Except RequestError α) : Prop := ∀ e, x = .error e → e.NamesLine

namespace Names
variable {α β : Type}

theorem ok (a : α) : Names (.ok a) := nofun

theorem error {e : RequestError} (h : e.NamesLine) : Names (.error e : Except RequestError α) := by
  rintro _ ⟨⟩
  exact h

theorem bind {x : Except RequestError α} {f : α → Except RequestError β} (h : Names x)
    (hf : ∀ a, Names (f a)) : Names (x >>= f) := by
  cases x with
  | error e => exact error (h e rfl)
  | ok a => exact hf a

theorem mapM {f : α → Except RequestError β} (hf : ∀ a, Names (f a)) (as : List α) :
    Names (as.mapM f) := by
  induction as with
  | nil => exact ok []
  | cons a rest ih =>
    rw [List.mapM_cons]
    exact bind (hf a) fun b => bind ih fun bs => ok (b :: bs)

end Names

namespace Frame

theorem bytes_names (f : Frame) : Names f.bytes := by
  cases f with
  | simple text => exact .ok _
  | bulk data => exact .ok data
  | _ => exact .error trivial

theorem text_names (f : Frame) : Names f.text := by
  cases f with
  | simple text => exact .ok text
  | bulk data =>
    rw [text]
    split
    · exact .ok _
    · exact .error trivial
  | _ => exact .error trivial

theorem int64_names (f : Frame) : Names f.int64 := by
  have hread (text : String) : Names (int64.read text) := by
    unfold int64.read
    split
    · exact .ok _
    · exact .error trivial
  cases f with
  | integer value => exact .ok value
  | simple text => exact hread text
  | bulk data =>
    rw [int64]
    split
    · exact hread _
    · exact .error trivial
  | _ => exact .error trivial

theorem float_names (f : Frame) : Names f.float := by
  have hread (text : String) : Names (float.read text) := by
    unfold float.read
    split
    · exact .ok _
    · exact .error trivial
  cases f with
  | integer value => exact .ok _
  | simple text => exact hread text
  | bulk data =>
    rw [float]
    split
    · exact hread _
    · exact .error trivial
  | _ => exact .error trivial

theorem keyword_names {α : Type} (words : List (String × α)) (f : Frame) :
    Names (f.keyword words) := by
  refine .bind f.text_names fun s => ?_
  split
  · exact .ok _
  · exact .error trivial

end Frame

namespace Reader
variable {α β : Type}

def NamesLine (r : Reader α) : Prop := ∀ args, Names (r args)

namespace NamesLine

theorem pure (a : α) : NamesLine (Pure.pure a) := fun args => .ok (a, args)

theorem throw {e : RequestError} (h : e.NamesLine) :
    NamesLine (MonadExcept.throw e : Reader α) := fun _ => .error h

theorem bind {r : Reader α} {next : α → Reader β} (h : r.NamesLine)
    (hnext : ∀ a, (next a).NamesLine) : NamesLine (r >>= next) :=
  fun args => .bind (h args) fun read => hnext read.1 read.2

theorem map {r : Reader α} (f : α → β) (h : r.NamesLine) : NamesLine (f <$> r) :=
  fun args => .bind (h args) fun read => .ok (f read.1, read.2)

theorem next {as : Frame → Except RequestError α} (h : ∀ a, Names (as a)) :
    (Reader.next as).NamesLine := by
  intro args
  cases args with
  | nil => exact .error trivial
  | cons a rest => exact .bind (h a) fun read => .ok (read, rest)

theorem optional {r : Reader α} (h : r.NamesLine) : r.optional.NamesLine := by
  intro args
  cases args with
  | nil => exact .ok (none, [])
  | cons a rest => exact .bind (h (a :: rest)) fun read => .ok (some read.1, read.2)

theorem all {read : List Frame → Except RequestError α} (h : ∀ args, Names (read args)) :
    (Reader.all read).NamesLine :=
  fun args => .bind (h args) fun a => .ok (a, [])

theorem run {r : Reader α} (h : r.NamesLine) {command : String} (hcommand : IsLine command)
    (args : List Frame) : Names (r.run command args) := by
  unfold Reader.run
  split
  · exact .ok _
  · exact .error hcommand
  · exact .error hcommand
  · next e _ heq => exact .error (h args e heq)

end NamesLine

theorem bytes_names : bytes.NamesLine := .next Frame.bytes_names

theorem text_names : text.NamesLine := .next Frame.text_names

theorem int64_names : int64.NamesLine := .next Frame.int64_names

theorem float_names : float.NamesLine := .next Frame.float_names

theorem keyword_names (words : List (String × α)) : (keyword words).NamesLine :=
  .next (Frame.keyword_names words)

theorem remaining_names : remaining.NamesLine := by
  refine .all fun args => ?_
  cases args with
  | nil => exact .error trivial
  | cons a rest => exact .mapM Frame.bytes_names _

theorem pairUp_names : ∀ items : List Bytes, Names (pairUp items)
  | [] => .ok []
  | [_] => .error trivial
  | _ :: _ :: rest => .bind (pairUp_names rest) fun _ => .ok _

theorem pairs_names : pairs.NamesLine :=
  .bind remaining_names fun items _ => .bind (pairUp_names items) fun _ => .ok _

theorem bitOffset_names : bitOffset.NamesLine := by
  refine .next fun a e h => ?_
  have ha := a.int64_names
  split at h
  · cases h
    trivial
  · next e' _ heq =>
    cases h
    exact ha e heq
  · split at h
    · cases h
    · cases h
      trivial

theorem bit_names : bit.NamesLine := by
  refine .next fun a e h => ?_
  have ha := a.int64_names
  split at h
  · cases h
    trivial
  · next e' _ heq =>
    cases h
    exact ha e heq
  · split at h
    · cases h
    · split at h
      · cases h
      · cases h
        trivial

theorem ttlOf_names {command : String} (h : IsLine command) (millis : Nat) (amount : Int64) :
    Names (ttlOf command millis amount) := by
  simp only [ttlOf]
  split
  · exact .ok _
  · exact .error h

theorem ttl_names {command : String} (h : IsLine command) (millis : Nat) :
    (ttl command millis).NamesLine :=
  .bind int64_names fun amount _ => .bind (ttlOf_names h millis amount) fun _ => .ok _

theorem elementCount_names : elementCount.NamesLine := by
  refine .bind int64_names fun n => ?_
  split
  · exact .pure _
  · exact .throw trivial

theorem scoreBound_names : scoreBound.NamesLine := by
  refine .bind text_names fun s => ?_
  split
  · exact .pure _
  · exact .throw trivial

end Reader
end RespStore
