import CheatCode.Packet
import CheatCode.RawHex

/-!
# Taking a frame apart

A frame does not say how long its payload was: the end of the body is recognised
by its last words and taken off. A text that is no frame is a raw packet with
that very text as its payload, so nothing is lost either way.
-/

namespace CheatCode.Packet

/-- Every second element, starting with the second. -/
def alternate : List α → List α
  | _ :: b :: rest => b :: alternate rest
  | _ => []

/-- The packet in a frame of whole words. With `keepReturn` the first closing word
of a subroutine stays in its payload. -/
def ofWords (lead : Lead) (keepReturn : Bool) (first second : Word) (body : List Word) :
    Packet :=
  let address := lead.half.map fun (region, high) => .ofWord region high first
  let packet (bytes : List UInt8) : Packet :=
    ⟨RawHex.ofBytes bytes, lead.codeType, address, none, none⟩
  match lead.layout.header with
  | .perWord => packet (Word.unpack (alternate (first :: second :: body)))
  | .byteCount => packet ((Word.unpack body).take second.toNat)
  | .subroutine => packet (Word.unpack (Footer.ofSubroutine.remove keepReturn body))
  | .lineCount => packet (Word.unpack (Footer.ofInsertion.remove false body))
  | .checksummed =>
    (packet (Word.unpack (Footer.ofInsertion.remove false body))).guarded
      (second.extractLsb' 24 8) (second.extractLsb' 8 16)

/-- The packet that a text frames. -/
def unframe (t : Text) (keepReturn : Bool) : Packet :=
  match (Hex.parse t).toOption.bind Word.whole? with
  | some (first :: second :: body) =>
    match Lead.ofByte? (first.byte 3) with
    | some lead => ofWords lead keepReturn first second body
    | none => raw t
  | _ => raw t

end CheatCode.Packet
