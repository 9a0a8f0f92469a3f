import RespStore.Proofs.Request.SetGrammar

/-! Requests as clients write them: a name and arguments in bulk, with numbers as decimal texts. -/
namespace RespStore

theorem Decimal.exists_int64 {n : Int} (hmin : -2 ^ 63 ≤ n) (hmax : n ≤ 2 ^ 63 - 1) :
    ∃ m : Int64, m.toInt = n :=
  ⟨.ofInt n, Int64.toInt_ofInt_of_le hmin (by omega)⟩

namespace Frame

def request (name : String) (args : List Bytes) : Frame :=
  .bulkArray (Bytes.ofString name :: args)

theorem states_bytes (n : Int64) : (Frame.bulk (Decimal.bytes n.toInt)).States n :=
  .numeral rfl (Decimal.readInt64_eq_ok_iff.1 (Decimal.readInt64_bytes n))

theorem mapM_bytes_bulk (items : List Bytes) :
    (items.map bulk).mapM bytes = .ok items := by
  induction items with
  | nil => rfl
  | cons item rest ih =>
    rw [List.map_cons, List.mapM_cons, ih]
    rfl

end Frame

namespace Reader

theorem int64_cons {amount : Frame} {n : Int64} (h : amount.States n) (rest : List Frame) :
    int64 (amount :: rest) = .ok (n, rest) :=
  next_cons_eq_ok_iff.2 ⟨Frame.int64_eq_ok_iff.2 h, rfl⟩

theorem bytes_cons {frame : Frame} {data : Bytes} (h : frame.bytes = .ok data) (rest : List Frame) :
    bytes (frame :: rest) = .ok (data, rest) :=
  next_cons_eq_ok_iff.2 ⟨h, rfl⟩

theorem ttl_cons {command : String} {unit millis : Nat} {amount : Frame} {n : Int64}
    (h : amount.States n) (httl : ttlOf command unit n = .ok millis) (rest : List Frame) :
    ttl command unit (amount :: rest) = .ok (millis, rest) :=
  bind_eq_ok (int64_cons h rest) (bind_eq_ok_iff.2 ⟨millis, httl, rfl⟩)

theorem pairUp_flatMap (bindings : List (Bytes × Bytes)) :
    pairUp (bindings.flatMap fun b => [b.1, b.2]) = .ok bindings := by
  induction bindings with
  | nil => rfl
  | cons b rest ih =>
    rw [List.flatMap_cons]
    exact bind_eq_ok_iff.2 ⟨rest, ih, rfl⟩

theorem pairs_bytes {bindings : List (Bytes × Bytes)} (h : bindings ≠ []) :
    pairs ((bindings.flatMap fun b => [b.1, b.2]).map .bulk) = .ok (bindings, []) := by
  have hremaining : remaining ((bindings.flatMap fun b => [b.1, b.2]).map .bulk) =
      .ok (bindings.flatMap fun b => [b.1, b.2], []) := by
    refine all_eq_ok_iff.2 ⟨?_, rfl⟩
    cases bindings with
    | nil => exact absurd rfl h
    | cons b rest => exact Frame.mapM_bytes_bulk (b.1 :: b.2 :: rest.flatMap fun b => [b.1, b.2])
  refine bind_eq_ok hremaining ?_
  rw [pairUp_flatMap]
  rfl

end Reader

namespace Command

variable (key value : Bytes)

theorem ofFrame_array_numbered {α : Type} {family : α → Command} (make : Bytes → Int64 → α)
    {name k amount : Frame} {word : String} (hname : readName name = .ok word)
    (hr : reader? word = some (family <$> do return make (← Reader.bytes) (← Reader.int64)))
    {key : Bytes} (hkey : k.bytes = .ok key) {n : Int64} (hamount : amount.States n) :
    ofFrame (.array [name, k, amount]) = .ok (family (make key n)) := by
  rw [ofFrame_array hname hr, Reader.run_eq_ok_iff]
  refine bind_eq_ok_iff.2 ⟨(make key n, []), ?_, rfl⟩
  exact Reader.bind_eq_ok (Reader.bytes_cons hkey [amount])
    (Reader.bind_eq_ok (Reader.int64_cons hamount []) rfl)

theorem ofFrame_array_timed (make : Bytes → Nat → Bytes → StringCommand)
    {name k amount v : Frame} {word : String} {unit : Nat} (hname : readName name = .ok word)
    (hr : reader? word = some (.strings <$> do
      return make (← Reader.bytes) (← Reader.ttl word unit) (← Reader.bytes)))
    {key value : Bytes} (hkey : k.bytes = .ok key) {n : Int64} (hamount : amount.States n)
    (hvalue : v.bytes = .ok value) {ttl : Nat} (httl : Reader.ttlOf word unit n = .ok ttl) :
    ofFrame (.array [name, k, amount, v]) = .ok (.strings (make key ttl value)) := by
  rw [ofFrame_array hname hr, Reader.run_eq_ok_iff]
  refine bind_eq_ok_iff.2 ⟨(make key ttl value, []), ?_, rfl⟩
  exact Reader.bind_eq_ok (Reader.bytes_cons hkey [amount, v])
    (Reader.bind_eq_ok (Reader.ttl_cons hamount httl [v])
      (Reader.bind_eq_ok (Reader.bytes_cons hvalue []) rfl))

theorem ofFrame_numbered {α : Type} {family : α → Command} (make : Bytes → Int64 → α)
    {name word : String} (hword : Text.lowercase name = word)
    (hr : reader? word = some (family <$> do return make (← Reader.bytes) (← Reader.int64)))
    (n : Int64) :
    ofFrame (.request name [key, Decimal.bytes n.toInt]) = .ok (family (make key n)) :=
  ofFrame_array_numbered make (readName_bulk hword) hr rfl (Frame.states_bytes n)

theorem ofFrame_timed (make : Bytes → Nat → Bytes → StringCommand) {name word : String} {unit : Nat}
    (hword : Text.lowercase name = word)
    (hr : reader? word = some (.strings <$> do
      return make (← Reader.bytes) (← Reader.ttl word unit) (← Reader.bytes)))
    {n : Int64} {ttl : Nat} (h : Reader.ttlOf word unit n = .ok ttl) :
    ofFrame (.request name [key, Decimal.bytes n.toInt, value]) =
      .ok (.strings (make key ttl value)) :=
  ofFrame_array_timed make (readName_bulk hword) hr rfl (Frame.states_bytes n) rfl h

theorem ofFrame_paired {α : Type} {family : α → Command} (make : Bytes → List (Bytes × Bytes) → α)
    {name word : String} (hword : Text.lowercase name = word)
    (hr : reader? word = some (family <$> do return make (← Reader.bytes) (← Reader.pairs)))
    {bindings : List (Bytes × Bytes)} (h : bindings ≠ []) :
    ofFrame (.request name (key :: bindings.flatMap fun b => [b.1, b.2])) =
      .ok (family (make key bindings)) := by
  have hpairs := Reader.pairs_bytes h
  refine ofFrame_bulkArray hword hr ?_
  exact Reader.bind_eq_ok rfl (Reader.bind_eq_ok hpairs rfl)

theorem ofFrame_set {args : List Bytes} {o : SetOptions}
    (h : SetOptions.read {} (args.map .bulk) = .ok o) :
    ofFrame (.request "SET" (key :: value :: args)) = .ok (.strings (.set key value o)) :=
  (ofFrame_set_eq_ok_iff rfl).2 ⟨key, value, o, rfl, rfl, h, rfl⟩

theorem ofFrame_set_option {option : SetOption} {args : List Bytes} {o : SetOptions}
    (hwritten : option.Written (args.map .bulk)) (h : SetOptions.Gathers {} [option] o) :
    ofFrame (.request "SET" (key :: value :: args)) = .ok (.strings (.set key value o)) := by
  have hread := (SetOptions.read_groups [⟨option, _, hwritten⟩]).2 h
  rw [List.flatMap_singleton] at hread
  exact ofFrame_set key value hread

theorem ofFrame_set_get : ofFrame (.request "SET" [key, value, Bytes.ofString "GET"]) =
    .ok (.strings (.set key value { get := true })) := by
  have hwritten : SetOption.get.Written ([Bytes.ofString "GET"].map .bulk) :=
    .get ⟨_, rfl, by decide⟩
  exact ofFrame_set_option key value hwritten (SetOptions.Gathers.get_iff.2 rfl)

theorem ofFrame_set_nx : ofFrame (.request "SET" [key, value, Bytes.ofString "NX"]) =
    .ok (.strings (.set key value { condition := some .ifAbsent })) := by
  have hwritten : SetOption.nx.Written ([Bytes.ofString "NX"].map .bulk) :=
    .nx ⟨_, rfl, by decide⟩
  exact ofFrame_set_option key value hwritten
    ((SetOptions.Gathers.condition_iff .nx rfl rfl nofun).2 ⟨rfl, rfl⟩)

theorem ofFrame_set_ex {n : Int64} (hpos : 1 ≤ n.toInt) (hmax : 1000 * n.toInt ≤ 2 ^ 63 - 1) :
    ofFrame (.request "SET" [key, value, Bytes.ofString "EX", Decimal.bytes n.toInt]) =
      .ok (.strings (.set key value { expiry := some (.ttl (1000 * n.toInt).toNat) })) := by
  have hwritten : (SetOption.ex n).Written
      ([Bytes.ofString "EX", Decimal.bytes n.toInt].map .bulk) :=
    .ex ⟨_, rfl, by decide⟩ (Frame.states_bytes n) hpos hmax
  exact ofFrame_set_option key value hwritten
    ((SetOptions.Gathers.expiry_iff (.ex n) rfl rfl nofun).2 ⟨rfl, rfl⟩)

theorem ofFrame_set_px {n : Int64} (hpos : 1 ≤ n.toInt) :
    ofFrame (.request "SET" [key, value, Bytes.ofString "PX", Decimal.bytes n.toInt]) =
      .ok (.strings (.set key value { expiry := some (.ttl n.toInt.toNat) })) := by
  have hwritten : (SetOption.px n).Written
      ([Bytes.ofString "PX", Decimal.bytes n.toInt].map .bulk) :=
    .px ⟨_, rfl, by decide⟩ (Frame.states_bytes n) hpos
  exact ofFrame_set_option key value hwritten
    ((SetOptions.Gathers.expiry_iff (.px n) rfl rfl nofun).2 ⟨rfl, rfl⟩)

theorem ofFrame_brpop {timeout : Bytes} {nanos : Nat}
    (h : ListCommand.timeoutOf timeout = .ok nanos) :
    ofFrame (.request "BRPOP" [key, timeout]) = .ok (.lists (.brpop [key] nanos)) := by
  refine ofFrame_bulkArray rfl rfl ?_
  refine Reader.bind_eq_ok (show Reader.remaining _ = .ok ([key, timeout], []) from rfl) ?_
  refine Reader.bind_eq_ok (r := liftM (ListCommand.timeoutOf timeout)) ?_ rfl
  rw [h]
  rfl

end Command
end RespStore
