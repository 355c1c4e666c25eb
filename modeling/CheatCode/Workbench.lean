import CheatCode.Listing.Assembly
import CheatCode.Packet.Frame
import CheatCode.Packet.Unframe
import CheatCode.Source.Diagnostic

/-!
# Working on a code step by step

A workbench holds a configuration, a text, a packet and prepared source, and each
step turns some of them into others. A step that fails changes nothing.
-/

namespace CheatCode

/-- What is being worked on. -/
structure Workbench where
  /-- The settings in force. -/
  config : Config
  /-- The text. -/
  text : Text
  /-- The packet. -/
  packet : Packet
  /-- The source that was prepared last. -/
  prepared : Source.Prepared

/-- What can be done. -/
inductive Step where
  /-- Takes a new text. -/
  | setText (text : Text)
  /-- Makes the text the payload of the packet. -/
  | load
  /-- Makes the text a raw packet. -/
  | raw
  /-- Sets the type of the packet. -/
  | setType (name : Text)
  /-- Sets or removes the address of the packet. -/
  | setAddress (address : Option Text)
  /-- Sets the guard of the packet. -/
  | guard (checksum : BitVec 8) (xor : BitVec 16)
  /-- Removes the guard of the packet. -/
  | unguard
  /-- Frames the packet. -/
  | frame
  /-- Takes the text apart into a packet. -/
  | unframe (keepReturn : Bool)
  /-- Takes the payload of the packet as the text. -/
  | payload
  /-- Takes the bytes of the payload as raw hex. -/
  | bytes
  /-- Lays the text out as raw hex. -/
  | normalize
  /-- Turns a listing into assembly. -/
  | format
  /-- Makes the text acceptable as one line. -/
  | sanitizeLine
  /-- Makes every line of the text acceptable. -/
  | sanitize
  /-- Prepares the text as source. -/
  | prepare
  /-- Shows diagnostics with the lines of the prepared source. -/
  | annotate (diagnostics : Text)
  /-- Takes new settings. -/
  | configure (settings : Text)

/-- Why a step cannot be done. -/
inductive Fault where
  /-- The code cannot be framed, or a parameter is refused. -/
  | code (error : CodeError)
  /-- The payload is no hexadecimal text. -/
  | hex (error : Hex.Error)
  /-- The text cannot be laid out as raw hex. -/
  | notHex
  /-- The settings cannot be read. -/
  | settings

namespace Workbench

/-- An empty workbench. -/
def empty (config : Config) : Workbench := ⟨config, [], .raw [], .empty⟩

/-- The workbench with another text. -/
def withText (w : Workbench) (text : Text) : Workbench := { w with text := text }

/-- The address of insertion of the prepared source. -/
def site (w : Workbench) : Word := w.prepared.siteUnder w.config

/-- The workbench after a step. -/
def step (w : Workbench) : Step → Except Fault Workbench
  | .setText text => .ok (w.withText text)
  | .load => .ok { w with packet := { w.packet with payload := w.text } }
  | .raw => .ok { w with packet := .raw w.text }
  | .setType name =>
    match CodeType.read name with
    | .ok type => .ok { w with packet := { w.packet with codeType := type } }
    | .error e => .error (.code e)
  | .setAddress address =>
    match address.mapM Address.read with
    | .ok address => .ok { w with packet := { w.packet with address := address } }
    | .error e => .error (.code e)
  | .guard checksum xor => .ok { w with packet := w.packet.guarded checksum xor }
  | .unguard => .ok { w with packet := w.packet.unguarded }
  | .frame =>
    match w.packet.frame with
    | .ok framed => .ok (w.withText framed)
    | .error e => .error (.code e)
  | .unframe keepReturn => .ok { w with packet := Packet.unframe w.text keepReturn }
  | .payload => .ok (w.withText w.packet.payload)
  | .bytes =>
    match w.packet.bytes with
    | .ok bytes => .ok (w.withText (RawHex.ofBytes bytes))
    | .error e => .error (.hex e)
  | .normalize =>
    match RawHex.normalize? w.text with
    | some text => .ok (w.withText text)
    | none => .error .notHex
  | .format => .ok (w.withText (Listing.assembly w.config w.text))
  | .sanitizeLine => .ok (w.withText (Source.sanitizeLine w.text))
  | .sanitize => .ok (w.withText (Source.sanitize w.text))
  | .prepare =>
    let prepared := Source.Prepared.ofSource w.config w.text
    .ok { w with prepared := prepared, text := prepared.text }
  | .annotate diagnostics => .ok (w.withText (Source.annotate diagnostics w.prepared.text))
  | .configure settings =>
    match Config.read? settings with
    | some config => .ok { w with config := config }
    | none => .error .settings

end Workbench

end CheatCode
