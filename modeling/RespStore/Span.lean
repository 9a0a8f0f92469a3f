/-! Inclusive index ranges over the whole of the integers, resolved against a length. -/
namespace RespStore

/-- The positions from `start` up to but without `stop`. -/
structure Span where
  start : Nat
  stop : Nat
  deriving DecidableEq, Repr

namespace Span

def length (s : Span) : Nat := s.stop - s.start

def slice {α : Type} (s : Span) (xs : List α) : List α := (xs.drop s.start).take s.length

/-- Negative indices count from the end. -/
def resolve (index : Int) (length : Nat) : Int := if index < 0 then length + index else index

/-- Both ends are clamped to the sequence; an empty selection is no span. -/
def clamp? (start stop : Int) (length : Nat) : Option Span :=
  let first := max (resolve start length) 0
  let last := min (resolve stop length) (length - 1)
  if length = 0 ∨ length ≤ first ∨ last < 0 ∨ last < first then none
  else some ⟨first.toNat, (last + 1).toNat⟩

/-- As `clamp?`, but an end before the first position selects that position, unless both indices
are negative and out of order. -/
def clampBytes? (start stop : Int) (length : Nat) : Option Span :=
  let first := max (resolve start length) 0
  let last := min (max (resolve stop length) 0) (length - 1)
  if start < 0 ∧ stop < 0 ∧ stop < start then none
  else if length = 0 ∨ last < first then none
  else some ⟨first.toNat, (last + 1).toNat⟩

end Span
end RespStore
