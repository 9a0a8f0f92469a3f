import RespStore.Bytes

/-! Letters of the ASCII range without regard to case. -/
namespace RespStore.Text

def lowerAscii (b : UInt8) : UInt8 := if 65 ≤ b ∧ b ≤ 90 then b + 32 else b

/-- Whether a byte string spells a word, whatever the case of its ASCII letters. -/
def spells (b : Bytes) (word : String) : Bool :=
  b.map lowerAscii == (Bytes.ofString word).map lowerAscii

end RespStore.Text
