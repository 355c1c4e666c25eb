import CheatCode.Packet
import CheatCode.RawHex

/-!
# Framing a packet

A frame is the header of its type followed by the payload, brought to whole lines
of two groups. A payload that is not hexadecimal is handed back as it is, so that
the output of a failed assembly stays visible; a missing or unusable parameter is
an error. The address is asked for first, then the number of lines is checked,
then checksum and exclusive-or value are asked for.
-/

namespace CheatCode

namespace Word

/-- Bytes filled with zeros to an even number of words. -/
def packPairs (bytes : List UInt8) : List Word :=
  let words := pack bytes
  if words.length % 2 = 1 then words ++ [0] else words

end Word

namespace Packet

/-- The address of a packet whose type needs one. -/
def needAddress (p : Packet) : Except CodeError Address :=
  match p.address with
  | some a => .ok a
  | none => .error (.missing p.codeType .address)

/-- One line for every word, each at the address after the one before. -/
def writes (layout : Layout) (a : Address) : List Word → List Text
  | [] => []
  | w :: rest => (a.leadWord layout).digits :: w.digits :: writes layout (a.advance 4) rest

/-- The second group of a guarded header. -/
def guard (p : Packet) (lines : Nat) : Except CodeError Text :=
  if 0xFF < lines then .error (.tooManyLines lines)
  else
    match p.checksum, p.xor with
    | none, _ => .error (.missing p.codeType .checksum)
    | some _, none => .error (.missing p.codeType .xor)
    | some checksum, some xor =>
      .ok (Hex.fixed 2 checksum.toNat ++ Hex.fixed 4 xor.toNat ++ Hex.fixed 2 lines)

/-- The groups of the frame around some bytes. -/
def frameGroups (p : Packet) (layout : Layout) (bytes : List UInt8) :
    Except CodeError (List Text) :=
  match layout.header with
  | .perWord => do
    let a ← p.needAddress
    return writes layout a (Word.pack bytes)
  | .byteCount => do
    let a ← p.needAddress
    return (a.leadWord layout).digits :: Hex.padded 8 bytes.length ::
      (Word.packPairs bytes).map Word.digits
  | .subroutine =>
    let body := Footer.ofSubroutine.close (Word.pack bytes)
    .ok (Word.digits 0xC0000000 :: Hex.padded 8 (body.length / 2) :: body.map Word.digits)
  | .lineCount => do
    let body := Footer.ofInsertion.close (Word.pack bytes)
    let a ← p.needAddress
    return (a.leadWord layout).digits :: Hex.padded 8 (body.length / 2) :: body.map Word.digits
  | .checksummed => do
    let body := Footer.ofInsertion.close (Word.pack bytes)
    let a ← p.needAddress
    let second ← p.guard (body.length / 2)
    return (a.leadWord layout).digits :: second :: body.map Word.digits

/-- The text of a packet: its frame, or the payload itself when the packet is raw
or the payload is not the hexadecimal form of at least one byte. -/
def frame (p : Packet) : Except CodeError Text :=
  match p.codeType.layout?, p.bytes with
  | some layout, .ok (b :: bytes) => (p.frameGroups layout (b :: bytes)).map RawHex.layout
  | _, _ => .ok p.payload

/-- A parameter of a fixed number of hexadecimal digits. The text is measured
without the blanks around it and refused as it was given. -/
def readParameter (parameter : Parameter) (width : Nat) (t : Text) : Except CodeError Nat :=
  let digits := Text.trim t
  match Text.readUnsigned? 16 (Text.limit (4 * width)) digits with
  | some n => if digits.length = width then .ok n else .error (.invalid parameter t)
  | none => .error (.invalid parameter t)

/-- The frame of a payload whose parameters are given as text. The first text in
the order address, exclusive-or value, checksum that is refused is the error. -/
def frameText (payload : Text) (type : CodeType) (address xor checksum : Option Text) :
    Except CodeError Text := do
  let address ← address.mapM Address.read
  let xor ← xor.mapM (readParameter .xor 4)
  let checksum ← checksum.mapM (readParameter .checksum 2)
  frame ⟨payload, type, address, xor.map (BitVec.ofNat 16), checksum.map (BitVec.ofNat 8)⟩

end Packet

end CheatCode
