import CheatCode.Listing.Line
import CheatCode.Packet.Unframe
import CheatCode.Source.Prepared

/-!
# Events

The program tells of its work in events: which settings are in force, what it framed or
prepared, and what in its input was passed over. An event is no part of any result. Which
events are shown, and in what form, is up to the environment.
-/

namespace CheatCode.Command

/-- How much an event matters. -/
inductive Level where
  /-- Something has failed. -/
  | error
  /-- The input is not what it should be. -/
  | warning
  /-- Something that helps to see what is done. -/
  | debug
  deriving DecidableEq

/-- What the program tells of. -/
inductive Event where
  /-- These settings are in force. -/
  | settings (config : Config)
  /-- A payload that is not hexadecimal was left without its frame. -/
  | unframed (type : CodeType)
  /-- A payload of so many bytes was framed. -/
  | framed (type : CodeType) (bytes : Nat)
  /-- A code that is not hexadecimal was taken as raw. -/
  | notDigits
  /-- A frame of so many digits was taken as raw, since they make no whole header and words. -/
  | notWords (digits : Nat)
  /-- The run of bytes in a frame is shorter than its header says. -/
  | shortRun (declared available : Nat)
  /-- The lines of a frame are not as many as its header says. -/
  | wrongCount (declared found : Nat)
  /-- A line of a listing was passed over. -/
  | skipped (line : Text)
  /-- Source of so many lines was prepared for an address. -/
  | prepared (lines : Nat) (site : Word)
  deriving DecidableEq

namespace Event

/-- How much each event matters; none of them tells of a failure. -/
def level : Event → Level
  | unframed _ | notDigits | shortRun _ _ | wrongCount _ _ => .warning
  | settings _ | framed _ _ | notWords _ | skipped _ | prepared _ _ => .debug

/-- What is told when a payload has been framed. -/
def ofFraming (type : CodeType) (payload : Text) : List Event :=
  match type.layout?, Hex.parse payload with
  | none, _ => []
  | some _, .ok (b :: bytes) => [.framed type (b :: bytes).length]
  | some _, _ => [.unframed type]

/-- What is told when a header declares a number of lines for a body of so many words. -/
def ofCount (declared words : Nat) : List Event :=
  if declared * 2 = words then [] else [.wrongCount declared ((words + 1) / 2)]

/-- What is told when a frame of whole words is taken apart. -/
def ofWords (header : Header) (second : Word) (body : List Word) : List Event :=
  match header with
  | .perWord => []
  | .byteCount =>
    if 4 * body.length < second.toNat then [.shortRun second.toNat (4 * body.length)] else []
  | .subroutine | .lineCount => ofCount second.toNat body.length
  | .checksummed => ofCount (second.toNat % 0x100) body.length

/-- What is told when a text is taken apart as a frame. -/
def ofUnframing (t : Text) : List Event :=
  let digits := Text.compact t
  if digits = [] || !digits.all Hex.isDigit then [.notDigits]
  else
    let first := (Text.readDigits? 16 (Text.limit 8) (digits.take 2)).map UInt8.ofNat
    match first.bind Lead.ofByte?, (Hex.parse t).toOption.bind Word.whole? with
    | none, _ => []
    | some lead, some (_ :: second :: body) => ofWords lead.layout.header second body
    | some _, _ => [.notWords digits.length]

/-- What is told when a listing is read: blank lines aside, every line without an
instruction. -/
def ofListing (listing : Text) : List Event :=
  ((Text.lines listing).filter fun line =>
    (Listing.Line.parse? line).isNone && Text.trim line ≠ []).map .skipped

/-- What is told when source has been prepared. -/
def ofSource (config : Config) (source : Text) : Event :=
  .prepared (Source.keptLines config source).length
    ((Source.Prepared.ofSource config source).siteUnder config)

end Event

end CheatCode.Command
