import CheatCode.Packet
import CheatCode.Json.Value

/-!
# Packets as JSON

A packet is written as an object whose members stand in a fixed order, the address
as its text form. It is read from an object in any order, absent or null meaning
no value, or from an array of all five values in that order.
-/

namespace CheatCode

namespace CodeType

/-- The name of a type in data. -/
def name : CodeType → Text
  | raw => "Raw".toList
  | write32 => "Write32".toList
  | writeString => "WriteString".toList
  | execute => "Execute".toList
  | insert => "Insert".toList
  | insertLink => "InsertLink".toList
  | insertXor => "InsertXor".toList

/-- The type of the given name. -/
def ofName? (t : Text) : Option CodeType :=
  [raw, write32, writeString, execute, insert, insertLink, insertXor].find? (·.name = t)

/-- The type that a value names, either plainly or as the one member of an object. -/
def ofJson? : Json → Option CodeType
  | .object [(name, .null)] => (Json.textOf? name).bind ofName?
  | value => value.text?.bind ofName?

end CodeType

namespace Packet

/-- The value of a packet. -/
def toJson (p : Packet) : Json :=
  .object
    [(Json.points "payload".toList, .ofText p.payload),
     (Json.points "codetype".toList, .ofText p.codeType.name),
     (Json.points "bapo".toList, .ofOption (fun a => .ofText a.toText) p.address),
     (Json.points "xor".toList, .ofOption (fun x => .ofNat x.toNat) p.xor),
     (Json.points "checksum".toList, .ofOption (fun c => .ofNat c.toNat) p.checksum)]

/-- Reads a value that may be absent or null. -/
def ofOptional? (read : Json → Option α) : Json → Option (Option α)
  | .null => some none
  | value => (read value).map some

/-- The packet of its five values. -/
def ofValues? (payload codeType address xor checksum : Json) : Option Packet := do
  let payload ← payload.text?
  let codeType ← CodeType.ofJson? codeType
  let address ← ofOptional? (fun value => value.text?.bind Address.ofText?) address
  let xor ← ofOptional? (Json.nat? (Text.limit 16)) xor
  let checksum ← ofOptional? (Json.nat? (Text.limit 8)) checksum
  return ⟨payload, codeType, address, xor.map (BitVec.ofNat 16), checksum.map (BitVec.ofNat 8)⟩

/-- The packet that a value denotes. -/
def ofJson? : Json → Option Packet
  | .array [payload, codeType, address, xor, checksum] =>
    ofValues? payload codeType address xor checksum
  | .object members => do
    let value (name : String) := (Json.object members).member? name.toList
    ofValues? (← value "payload") (← value "codetype") ((value "bapo").getD .null)
      ((value "xor").getD .null) ((value "checksum").getD .null)
  | _ => none

end Packet

end CheatCode
