import RespStore.SortedSet

/-! Values: what a key can be bound to. -/
namespace RespStore

inductive Value where
  | string (data : Bytes)
  | list (items : List Bytes)
  | set (members : ByteSet)
  | sortedSet (members : SortedSet)
  | hash (fields : Table Bytes)
  deriving DecidableEq, Repr

def Value.typeName : Value → String
  | .string _ => "string"
  | .list _ => "list"
  | .set _ => "set"
  | .sortedSet _ => "zset"
  | .hash _ => "hash"

/-- A type of values that is created empty on demand and dropped when it gets empty again. -/
class Collection (α : Type) where
  toValue : α → Value
  ofValue? : Value → Option α
  empty : α
  isEmpty : α → Bool
  ofValue?_eq_some_iff : ∀ {v : Value} {c : α}, ofValue? v = some c ↔ v = toValue c
  isEmpty_empty : isEmpty empty = true

instance : Collection (List Bytes) where
  toValue := .list
  ofValue? | .list items => some items | _ => none
  empty := []
  isEmpty := List.isEmpty
  ofValue?_eq_some_iff {v c} := by cases v <;> simp
  isEmpty_empty := rfl

instance : Collection ByteSet where
  toValue := .set
  ofValue? | .set members => some members | _ => none
  empty := Table.empty
  isEmpty := Table.isEmpty
  ofValue?_eq_some_iff {v c} := by cases v <;> simp
  isEmpty_empty := rfl

instance : Collection SortedSet where
  toValue := .sortedSet
  ofValue? | .sortedSet members => some members | _ => none
  empty := SortedSet.empty
  isEmpty := SortedSet.isEmpty
  ofValue?_eq_some_iff {v c} := by cases v <;> simp
  isEmpty_empty := rfl

instance : Collection (Table Bytes) where
  toValue := .hash
  ofValue? | .hash fields => some fields | _ => none
  empty := Table.empty
  isEmpty := Table.isEmpty
  ofValue?_eq_some_iff {v c} := by cases v <;> simp
  isEmpty_empty := rfl

end RespStore
