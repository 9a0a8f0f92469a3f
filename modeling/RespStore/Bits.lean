import RespStore.Bytes

/-! Byte strings as arrays of bits: the first bit is the highest of the first byte. -/
namespace RespStore.Bits

/-- The byte in which only the bit at an offset is set. -/
def mask (offset : Nat) : UInt8 := 128 >>> UInt8.ofNat (offset % 8)

/-- The bit at an offset, which is counted on from byte to byte. -/
def bitOf (byte : UInt8) (offset : Nat) : Bool := byte &&& mask offset != 0

def ofBytes (data : Bytes) : List Bool :=
  data.flatMap fun byte => (List.range 8).map (bitOf byte)

/-- The bit at an offset. All bits past the end are zero. -/
def get (data : Bytes) (offset : Nat) : Bool :=
  data[offset / 8]?.any (bitOf · offset)

/-- Sets the bit at an offset, after filling up with zero bytes as far as needed. -/
def set (data : Bytes) (offset : Nat) (bit : Bool) : Bytes :=
  let padded := data ++ List.replicate (offset / 8 + 1 - data.length) 0
  padded.modify (offset / 8) fun byte =>
    if bit then byte ||| mask offset else byte &&& ~~~mask offset

end RespStore.Bits
