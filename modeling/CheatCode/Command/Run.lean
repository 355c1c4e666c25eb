import CheatCode.Command.Request
import CheatCode.Command.System
import CheatCode.Json.Printer
import CheatCode.Listing.Assembly
import CheatCode.Packet.Frame
import CheatCode.Packet.Json
import CheatCode.Packet.Unframe
import CheatCode.Source.Diagnostic

/-!
# Carrying out a request

Every request reads what it needs, computes its result and writes it as the last
thing. Whatever can go wrong before the write goes wrong before anything has
changed. The settings are read first, for every request. Texts of help and of the
version are left out: arguments that ask for them make no request.
-/

namespace CheatCode.Command

/-- A packet as it is shown to a reader. -/
def describe (p : Packet) : Text :=
  "codetype: ".toList ++ p.codeType.label ++ ['\n'] ++
    (match p.address with
      | some a => "bapo:     ".toList ++ a.toText ++ ['\n']
      | none => []) ++
    (match p.checksum with
      | some c => "checksum: ".toList ++ Hex.fixed 2 c.toNat ++ ['\n']
      | none => []) ++
    (match p.xor with
      | some x => "xor:      ".toList ++ Hex.fixed 4 x.toNat ++ ['\n']
      | none => []) ++
    '\n' :: p.payload

/-- A packet in the given style. -/
def Style.show (style : Style) (p : Packet) : Text :=
  match style with
  | text => describe p
  | json => p.toJson.print

/-- What a request does under the given settings. -/
def Request.plan (config : Config) : Request → Plan
  | frame type address xor checksum input out =>
    match CodeType.read type with
    | .error e => .fail e.message
    | .ok type =>
      .readText input fun payload =>
        match Packet.frameText (Text.trim payload) type address xor checksum with
        | .error e => .fail e.message
        | .ok framed => .logAll (Event.ofFraming type (Text.trim payload)) (.writeText out framed)
  | unframe input keepReturn style out =>
    .readText input fun framed =>
      .logAll (Event.ofUnframing (Text.trim framed))
        (.writeText out (style.show (Packet.unframe (Text.trim framed) keepReturn)))
  | unhex input output =>
    .readText input fun framed =>
      .logAll (Event.ofUnframing (Text.trim framed))
        (match (Packet.unframe (Text.trim framed) false).bytes with
        | .error _ => .fail "payload is not hex".toList
        | .ok bytes => .writeBytes output bytes)
  | rawHex input out =>
    .readFile input fun
      | some bytes => .writeText out (RawHex.ofBytes bytes)
      | none => .fail ("reading ".toList ++ input)
  | format input out =>
    .readText input fun listing =>
      .logAll (Event.ofListing listing) (.writeText out (Listing.assembly config listing))
  | sanitize input out =>
    .readText input fun source => .writeText out (Source.sanitize source)
  | prepare input out =>
    .readText input fun source =>
      .log (.ofSource config source)
        (.writeText out (Text.trimEnd (Source.Prepared.ofSource config source).text))
  | annotate diagnostics source =>
    .readText diagnostics fun diagnostics =>
      .readText source fun source => .finish (Source.annotate diagnostics source)

/-- What a request does once its settings are known. -/
def Request.planUnder (request : Request) (config : Config) : Plan :=
  .log (.settings config) (request.plan config)

/-- What a request does, with its settings in a file. -/
def Invocation.plan (invocation : Invocation) : Plan :=
  match invocation.config with
  | none => invocation.request.planUnder .default
  | some path =>
    .readText path fun settings =>
      match Config.read? settings with
      | some config => invocation.request.planUnder config
      | none => .fail ("parsing ".toList ++ path)

/-- What the program does with its arguments. -/
def plan (arguments : List Text) : Plan :=
  match Invocation.ofArguments? arguments with
  | some invocation => invocation.plan
  | none => .refuse

end CheatCode.Command
