import CheatCode.CodeType
import CheatCode.Text.Blank
import CheatCode.Text.Numeral

/-!
# Addresses of codes

An address is an offset of 24 bits in one half of a region. In text it has eight
digits: the region, the half, and six digits of offset. In a frame the region and
the half are folded into the leading byte, in front of the offset.
-/

namespace CheatCode

/-- Where a code writes or is inserted. -/
structure Address where
  /-- What the address is relative to. -/
  region : Region
  /-- Whether it lies in the upper half of the region. -/
  high : Bool
  /-- The position in that half. -/
  offset : BitVec 24
  deriving DecidableEq

namespace Address

/-- The text form of an address. -/
def toText (a : Address) : Text :=
  (match a.region with | .base => '8' | .pointer => '0') ::
    (if a.high then '1' else '0') :: Hex.fixed 6 a.offset.toNat

/-- The address that a text denotes, blanks around it aside. -/
def ofText? (t : Text) : Option Address :=
  match Text.trim t with
  | region :: half :: digits =>
    if digits.length = 6 then do
      let offset ← Text.readDigits? 16 (Text.limit 24) digits
      let region ←
        if region = '8' then some .base else if region = '0' then some .pointer else none
      let high ← if half = '0' then some false else if half = '1' then some true else none
      return ⟨region, high, BitVec.ofNat 24 offset⟩
    else none
  | _ => none

/-- The address in a half of a region whose offset is the low 24 bits of a word. -/
def ofWord (region : Region) (high : Bool) (w : Word) : Address := ⟨region, high, w.setWidth 24⟩

/-- The mask of an offset keeps the low 24 bits. -/
theorem toNat_offset_ofWord (region : Region) (high : Bool) (w : Word) :
    (ofWord region high w).offset.toNat = (w &&& 0x00FFFFFF).toNat := by
  have mask : (0x00FFFFFF : Word).toNat = 2 ^ 24 - 1 := rfl
  rw [ofWord, BitVec.toNat_setWidth, BitVec.toNat_and, mask, Nat.and_two_pow_sub_one_eq_mod]

/-- The leading byte of a frame at this address. -/
def leadByte (a : Address) (layout : Layout) : UInt8 :=
  (match a.region with | .base => layout.base | .pointer => layout.pointer) |||
    (if a.high then 1 else 0)

/-- The first word of a frame at this address. -/
def leadWord (a : Address) (layout : Layout) : Word :=
  BitVec.ofNat 32 ((a.leadByte layout).toNat * 0x1000000 + a.offset.toNat)

/-- The address some bytes further on; past the end of its half it starts again. -/
def advance (a : Address) (bytes : Nat) : Address :=
  { a with offset := a.offset + BitVec.ofNat 24 bytes }

end Address

end CheatCode
