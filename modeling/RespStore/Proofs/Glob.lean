import RespStore.Proofs.Glob.Search
import RespStore.Proofs.Queue
import RespStore.Proofs.Reachable

/-! What the pattern of a single star selects, for any matcher that stops it at slashes. -/
namespace RespStore

/-- A key matches a star if there is no slash in it, whatever other bytes there are. -/
theorem Glob.matchesKey_star [matcher : Matcher] (hstar : matcher.StarStopsAtSlash) (key : Bytes) :
    matchesKey "*" key = decide (47 ∉ key) := by
  rw [Bool.eq_iff_iff, decide_eq_true_iff, ← Text.slash_mem_lossy_iff]
  exact hstar (Text.lossy key)

namespace Table

variable {β : Type} {key : Bytes}

theorem mem_keys_iff {t : Table β} : key ∈ t.keys ↔ (t.get? key).isSome := by
  unfold keys
  rw [Option.isSome_iff_exists, List.mem_map]
  constructor
  · rintro ⟨⟨k, value⟩, hmem, rfl⟩
    exact ⟨value, mem_toList_iff.1 hmem⟩
  · rintro ⟨value, hvalue⟩
    exact ⟨(key, value), mem_toList_iff.2 hvalue, rfl⟩

theorem nodup_keys (t : Table β) : t.keys.Nodup := by
  have hne : t.toList.Pairwise fun a b => a.1 ≠ b.1 := by
    refine t.ascending.imp fun {a b} hab heq => ?_
    rw [heq] at hab
    exact lt_irrefl b.1 hab
  exact List.pairwise_map.2 hne

end Table

def Bytes.slashless (items : List Bytes) : List Bytes := items.filter fun item => 47 ∉ item

section Star

variable [matcher : Glob.Matcher] (hstar : matcher.StarStopsAtSlash)

include hstar

theorem SetCommand.matching_star (members : List Bytes) :
    matching (some "*") members = Bytes.slashless members :=
  List.filter_congr fun member _ => Glob.matchesKey_star hstar member

theorem KeyCommand.exec_keys_star (ks : Keyspace) :
    KeyCommand.exec ks (.keys "*") = (.bulkArray (Bytes.slashless ks.keys), ks) := by
  have hselected : ks.keys.filter (Glob.matchesKey "*") = Bytes.slashless ks.keys :=
    List.filter_congr fun key _ => Glob.matchesKey_star hstar key
  rw [exec, hselected]

theorem SetCommand.exec_sscan_star (ks : Keyspace) (key : Bytes) (cursor : Nat)
    (count : Option Nat) : SetCommand.exec ks (.sscan key cursor (some "*") count) =
      ((SetCommand.exec ks (.smembers key)).1.map fun listed =>
          .array [.bulk (Bytes.ofString "0"), .bulkArray (Bytes.slashless listed.elements)],
        (SetCommand.exec ks (.smembers key)).2) := by
  simp only [exec, answer, matching_star hstar]
  cases (ks.getAs ByteSet key).1 with
  | error e => rfl
  | ok found => simp only [Except.map, Frame.elements_bulkArray]

/-- The pattern `*` selects what has no slash in it, and all of that. Of the live keys it replies
with each such one once, so with as many as are counted exactly if none has a slash; of the members
of a set it replies with such as are listed. -/
theorem Command.star_selects_slashless (ks : Keyspace) (client : Client) :
    (∃ selected, (Command.keys (.keys "*")).exec ks client =
          (.ok (.bulkArray selected), ks, client) ∧
        (∀ key, key ∈ selected ↔ (ks.live.get? key).isSome ∧ 47 ∉ key) ∧ selected.Nodup ∧
        (selected.length = ks.size ↔ ∀ key, (ks.live.get? key).isSome → 47 ∉ key)) ∧
      ∀ key cursor count, (Command.sets (.sscan key cursor (some "*") count)).exec ks client =
        let listing := (Command.sets (.smembers key)).exec ks client
        (listing.1.map fun listed =>
          .array [.bulk (Bytes.ofString "0"), .bulkArray (Bytes.slashless listed.elements)],
          listing.2) := by
  refine ⟨⟨Bytes.slashless ks.keys, ?_, fun key => ?_, ?_, ?_⟩, fun key cursor count => ?_⟩
  · have hexec := KeyCommand.exec_keys_star hstar ks
    exact congrArg (fun r : Frame × Keyspace => (Except.ok r.1, r.2, client)) hexec
  · simp [Bytes.slashless, Keyspace.keys, Table.mem_keys_iff]
  · exact (Table.nodup_keys ks.live).filter _
  · have hsize : ks.size = ks.keys.length := (List.length_map _).symm
    rw [hsize, Bytes.slashless, List.length_filter_eq_length_iff]
    simp [Keyspace.keys, Table.mem_keys_iff]
  · have hexec := SetCommand.exec_sscan_star hstar ks key cursor count
    have hsame :=
      congrArg (fun r : Outcome => (r.1.mapError CommandError.store, r.2, client)) hexec
    refine hsame.trans ?_
    show _ = (Except.map _ ((SetCommand.exec ks (.smembers key)).1.mapError _), _)
    cases (SetCommand.exec ks (.smembers key)).1 <;> rfl

end Star

namespace Command

/-- Of two keys the one with a slash in it is left out, and the other is not. -/
theorem star_selects_one_of_two :
    let client : Client := { id := 1 }
    let ks : Keyspace := { entries := (Table.empty.insert (Bytes.ofString "a/b")
      ⟨.string [118], none⟩).insert (Bytes.ofString "ab") ⟨.string [118], none⟩ }
    Glob.searching.StarStopsAtSlash ∧ ks.size = 2 ∧
      ∃ selected, ((Command.keys (.keys "*")).exec ks client).1 = .ok (.bulkArray selected) ∧
        Bytes.ofString "ab" ∈ selected ∧ Bytes.ofString "a/b" ∉ selected ∧
        selected.length ≠ 2 := by
  intro client ks
  have hstar := Glob.searching_starStopsAtSlash
  have hsize : ks.size = 2 := by decide
  obtain ⟨⟨selected, hexec, hselected, -, hall⟩, -⟩ := star_selects_slashless hstar ks client
  have hlive : (ks.live.get? (Bytes.ofString "a/b")).isSome := by decide
  have hslash : (47 : UInt8) ∈ Bytes.ofString "a/b" := by decide
  refine ⟨hstar, hsize, selected, congrArg Prod.fst hexec, ?_, fun hmem => ?_, fun hlength => ?_⟩
  · exact (hselected _).2 (by decide)
  · exact ((hselected _).1 hmem).2 hslash
  · exact hall.1 (hlength.trans hsize.symm) _ hlive hslash

/-- Whatever the matcher: a key with a slash in it is live, and is not among those that a star
selects. -/
theorem not_star_selects_all :
    ¬ ∃ matcher : Glob.Matcher, matcher.StarStopsAtSlash ∧
      ∀ ks : Keyspace, ks.Reachable → ∀ (client : Client) (key : Bytes),
        (ks.live.get? key).isSome →
        ∃ selected, ((Command.keys (.keys "*")).exec ks client).1 = .ok (.bulkArray selected) ∧
          key ∈ selected := by
  rintro ⟨matcher, hstar, h⟩
  let key := Bytes.ofString "a/b"
  let client : Client := { id := 1 }
  have hread : Command.ofFrame (.bulkArray [Bytes.ofString "SETNX", key, [118]]) =
      .ok (.strings (.setnx key [118])) := rfl
  obtain ⟨selected, hreply, hmem⟩ := h _ (.exec .start hread client) client key rfl
  let ks := ((Command.strings (.setnx key [118])).exec {} client).2.1
  have hnone : ((Command.keys (.keys "*")).exec ks client).1 = .ok (.bulkArray []) := by
    show Except.ok (KeyCommand.exec _ (.keys "*")).1 = _
    rw [KeyCommand.exec_keys_star hstar]
    rfl
  rw [hnone] at hreply
  have helements := congrArg Frame.elements (Except.ok.inj hreply)
  rw [Frame.elements_bulkArray, Frame.elements_bulkArray] at helements
  rw [← helements] at hmem
  cases hmem

end Command
end RespStore
