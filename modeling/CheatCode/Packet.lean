import CheatCode.Error

/-!
# Packets

A packet is a payload together with everything its frame needs. Nothing ties the
parameters to the type of code: framing decides which of them it uses, and what
it does not use never changes the frame.
-/

namespace CheatCode

/-- A payload with the parameters of its frame. -/
structure Packet where
  /-- The machine code as hexadecimal text. -/
  payload : Text
  /-- The type of the code. -/
  codeType : CodeType
  /-- Where the code writes or is inserted. -/
  address : Option Address
  /-- The exclusive-or value of a guarded code. -/
  xor : Option (BitVec 16)
  /-- The checksum of a guarded code. -/
  checksum : Option (BitVec 8)
  deriving DecidableEq

namespace Packet

/-- A payload without a frame. -/
def raw (payload : Text) : Packet := ⟨payload, .raw, none, none, none⟩

/-- A packet with a guard. -/
def guarded (p : Packet) (checksum : BitVec 8) (xor : BitVec 16) : Packet :=
  { p with checksum := some checksum, xor := some xor }

/-- A packet without a guard. -/
def unguarded (p : Packet) : Packet := { p with checksum := none, xor := none }

/-- The bytes of the payload. -/
def bytes (p : Packet) : Except Hex.Error (List UInt8) := Hex.parse p.payload

end Packet

end CheatCode
