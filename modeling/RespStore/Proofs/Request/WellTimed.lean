import RespStore.Proofs.Access.Commands
import RespStore.Proofs.Request.Yields

/-! Every time to live that a request states is positive, so nothing is born expired. -/
namespace RespStore

namespace SetOptions

def WellTimed (o : SetOptions) : Prop := ∀ ttl ∈ o.ttl?, 0 < ttl

theorem wellTimed_of_read : ∀ {args : List Frame} {o o' : SetOptions},
    o.read args = .ok o' → o.WellTimed → o'.WellTimed
  | [], o, o', h, ho => by
    cases h
    exact ho
  | a :: rest, o, o', h, ho => by
    unfold read at h
    obtain ⟨word, -, h⟩ := bind_eq_ok_iff.1 h
    cases word with
    | nx | xx =>
      simp only at h
      split at h
      · cases h
      · exact wellTimed_of_read h ho
    | keepttl =>
      simp only at h
      split at h
      · cases h
      · exact wellTimed_of_read h (by simp [WellTimed, ttl?])
    | get => exact wellTimed_of_read h ho
    | ex | px =>
      simp only at h
      split at h
      · cases h
      · split at h
        · cases h
        · obtain ⟨amount, -, h⟩ := bind_eq_ok_iff.1 h
          obtain ⟨total, htotal, h⟩ := bind_eq_ok_iff.1 h
          refine wellTimed_of_read h ?_
          rintro ttl ⟨⟩
          exact Reader.pos_of_ttlOf htotal

end SetOptions

theorem StringCommand.reader?_wellTimed {name : String} {r : Reader StringCommand}
    (h : reader? name = some r) : r.Yields WellTimed := by
  unfold reader? at h
  split at h <;> cases h
  -- The three commands that may state a time to live: PSETEX, SET and SETEX.
  case h_15 =>
    exact .bind (.any _) fun _ _ => .bind (Reader.ttl_yields _ _) fun ttl ht =>
      .bind (.any _) fun _ _ => .pure fun _ h => by cases h; exact ht
  case h_16 =>
    exact .bind (.any _) fun _ _ => .bind (.any _) fun _ _ =>
      .bind (.all fun _ _ ho => SetOptions.wellTimed_of_read ho nofun) fun _ ho => .pure ho
  case h_18 =>
    exact .bind (.any _) fun _ _ => .bind (Reader.ttl_yields _ _) fun ttl ht =>
      .bind (.any _) fun _ _ => .pure fun _ h => by cases h; exact ht
  all_goals repeat refine .bind (.any _) fun _ _ => ?_
  all_goals exact .pure nofun

theorem Command.wellTimed_of_ofFrame {request : Frame} {c : Command}
    (h : ofFrame request = .ok c) : c.WellTimed := by
  cases c with
  | strings c => exact strings_of_ofFrame StringCommand.reader?_wellTimed h
  | _ => trivial

end RespStore
