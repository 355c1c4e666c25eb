import CheatCode.Word

/-!
# Types of code

A loader reads a code as a header of two words and a body. The type of a code
says what the header holds and how the body ends; the leading byte of the header
names the type together with the half of memory that an address lies in.

The leading bytes of two types never coincide, which is what lets a frame be
taken apart without being told its type.
-/

namespace CheatCode

/-- The types of code, `raw` being bare instructions without a frame. -/
inductive CodeType where
  /-- Bare instructions. -/
  | raw
  /-- One write of a word for every word of the payload. -/
  | write32
  /-- A write of a run of bytes. -/
  | writeString
  /-- Instructions that run as a subroutine. -/
  | execute
  /-- Instructions inserted at an address. -/
  | insert
  /-- Instructions inserted by a branch that links. -/
  | insertLink
  /-- Instructions inserted when a checksum agrees. -/
  | insertXor
  deriving DecidableEq

/-- What an address is relative to. -/
inductive Region where
  /-- The base address register. -/
  | base
  /-- The pointer register. -/
  | pointer
  deriving DecidableEq

/-- What ends a body: two words when its last line is full, one word when the
last line lacks its second half. -/
structure Footer where
  /-- The first word of a full closing line. -/
  first : Word
  /-- The second word of a full closing line. -/
  second : Word
  /-- The word that completes an open line. -/
  pad : Word
  deriving DecidableEq

/-- What the header of a frame holds. -/
inductive Header where
  /-- Every line is a header of its own, followed by one word of the payload. -/
  | perWord
  /-- An address and the number of bytes. -/
  | byteCount
  /-- The number of lines, without an address. -/
  | subroutine
  /-- An address and the number of lines. -/
  | lineCount
  /-- An address, a checksum, an exclusive-or value and the number of lines. -/
  | checksummed
  deriving DecidableEq

/-- How a framed type of code is written. -/
structure Layout where
  /-- The leading byte of an address relative to the base. -/
  base : UInt8
  /-- The leading byte of an address relative to the pointer. -/
  pointer : UInt8
  /-- What the header holds. -/
  header : Header
  deriving DecidableEq

namespace Footer

/-- A subroutine returns. Completing an open line with a second return keeps a
body that ends in a return apart from the same body without it. -/
def ofSubroutine : Footer := ⟨0x4E800020, 0x00000000, 0x4E800020⟩

/-- The loader writes the branch back over the closing zero word. -/
def ofInsertion : Footer := ⟨0x60000000, 0x00000000, 0x00000000⟩

/-- The body with its end: afterwards every line is full. -/
def close (footer : Footer) (body : List Word) : List Word :=
  if body.length % 2 = 1 then body ++ [footer.pad] else body ++ [footer.first, footer.second]

/-- Whether a body ends with the closing line. -/
def endsFull (footer : Footer) (body : List Word) : Bool :=
  [footer.first, footer.second].isSuffixOf body

/-- The body without its end. The closing line of either kind is taken off whole;
with `keepFirst` only its second word is. -/
def remove (footer : Footer) (keepFirst : Bool) (body : List Word) : List Word :=
  if !keepFirst && (ofSubroutine.endsFull body || ofInsertion.endsFull body) then
    body.dropLast.dropLast
  else
    match body.getLast? with
    | none => body
    | some last =>
      if last = footer.pad || keepFirst && last = footer.second then body.dropLast else body

end Footer

namespace Header

/-- How a body under this header ends; writes have no end of their own. -/
def footer? : Header → Option Footer
  | perWord | byteCount => none
  | subroutine => some .ofSubroutine
  | lineCount | checksummed => some .ofInsertion

end Header

namespace CodeType

/-- The layout of a framed type. -/
def layout? : CodeType → Option Layout
  | raw => none
  | write32 => some ⟨0x04, 0x14, .perWord⟩
  | writeString => some ⟨0x06, 0x16, .byteCount⟩
  | execute => some ⟨0xC0, 0xC0, .subroutine⟩
  | insert => some ⟨0xC2, 0xD2, .lineCount⟩
  | insertLink => some ⟨0xC4, 0xD4, .lineCount⟩
  | insertXor => some ⟨0xF2, 0xF4, .checksummed⟩

/-- The types that have a frame. -/
def framed : List CodeType := [write32, writeString, execute, insert, insertLink, insertXor]

/-- Whether frames of this type carry an address. -/
def needsAddress : CodeType → Bool
  | raw | execute => false
  | _ => true

/-- Whether frames of this type carry a checksum. -/
def needsChecksum : CodeType → Bool
  | insertXor => true
  | _ => false

/-- The name of a type as it is shown, its two leading bytes where they differ. -/
def label : CodeType → Text
  | raw => "RAW".toList
  | write32 => "04/14".toList
  | writeString => "06/16".toList
  | execute => "C0".toList
  | insert => "C2/D2".toList
  | insertLink => "C4/D4".toList
  | insertXor => "F2/F4".toList

/-- The type of the given name. Slashes and case are ignored, and the first of
two leading bytes is name enough. -/
def ofLabel? (t : Text) : Option CodeType :=
  match String.ofList ((t.filter (· ≠ '/')).map Char.toUpper) with
  | "RAW" => some raw
  | "04" | "0414" => some write32
  | "06" | "0616" => some writeString
  | "C0" => some execute
  | "C2" | "C2D2" => some insert
  | "C4" | "C4D4" => some insertLink
  | "F2" | "F2F4" => some insertXor
  | _ => none

end CodeType

/-- What the leading byte of a frame tells: the type, and for a type with an
address the region it lies in and whether it lies in the upper half. -/
structure Lead where
  /-- The type of the frame. -/
  codeType : CodeType
  /-- How the frame is written. -/
  layout : Layout
  /-- The region of the address and its half, unless there is no address. -/
  half : Option (Region × Bool)
  deriving DecidableEq

namespace Lead

/-- The reading of an even leading byte under one type. -/
def ofEven? (even : UInt8) (high : Bool) (type : CodeType) : Option Lead :=
  type.layout?.bind fun layout =>
    if layout.header = .subroutine then none
    else if even = layout.base then some ⟨type, layout, some (.base, high)⟩
    else if even = layout.pointer then some ⟨type, layout, some (.pointer, high)⟩
    else none

/-- The reading of a leading byte. The lowest bit tells the half of memory, except
that a subroutine has its own byte and no address. -/
def ofByte? (b : UInt8) : Option Lead :=
  if b = 0xC0 then CodeType.execute.layout?.map fun layout => ⟨.execute, layout, none⟩
  else CodeType.framed.findSome? (ofEven? (b &&& 0xFE) (b &&& 1 = 1))

end Lead

end CheatCode
