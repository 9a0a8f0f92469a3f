import RespStore.Bytes

/-! What the server knows of a client. -/
namespace RespStore

structure Client where
  id : Nat
  name : Option Bytes := none
  libName : Option Bytes := none
  libVersion : Option Bytes := none
  quit : Bool := false
  deriving DecidableEq, Repr

end RespStore
