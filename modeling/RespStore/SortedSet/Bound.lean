import RespStore.Number.Binary64.Read

/-! One end of a range of scores. -/
namespace RespStore

structure ScoreBound where
  value : Binary64
  exclusive : Bool
  deriving DecidableEq, Repr

namespace ScoreBound

def admitsFromBelow (b : ScoreBound) (score : Binary64) : Bool :=
  if b.exclusive then b.value < score else b.value ≤ score

def admitsFromAbove (b : ScoreBound) (score : Binary64) : Bool :=
  if b.exclusive then score < b.value else score ≤ b.value

/-- A number, excluded from the range if an opening parenthesis comes before it. -/
def read? : Bytes → Option ScoreBound
  | 40 :: rest => (Binary64.read? rest).map (⟨·, true⟩)
  | b => (Binary64.read? b).map (⟨·, false⟩)

end ScoreBound
end RespStore
