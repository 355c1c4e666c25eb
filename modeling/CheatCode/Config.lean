import CheatCode.Json.Reader
import CheatCode.Word

/-!
# Configuration

A configuration is read from JSON text. A setting that is not given has its
default; one that is given must be of its kind, and given once. Settings of other
names are ignored.
-/

namespace CheatCode

/-- What can be set. -/
structure Config where
  /-- The file that prepared source includes. -/
  includePath : Text
  /-- The address of an insertion whose source names none. -/
  defaultSite : Word
  /-- The width that mnemonics are filled up to. -/
  mnemonicWidth : Nat
  deriving DecidableEq

namespace Config

/-- The settings in force when none are given. -/
def default : Config := ⟨"__includes.s".toList, 0x80000000, 10⟩

instance : Inhabited Config := ⟨default⟩

/-- The directive that includes the configured file. Its path has forward slashes
only. -/
def includeDirective (config : Config) : Text :=
  ".include \"".toList ++ config.includePath.map (fun c => if c = '\\' then '/' else c) ++ ['"']

/-- Sets the file to include. -/
def setInclude? (config : Config) (value : Json) : Option Config :=
  value.text?.map fun path => { config with includePath := path }

/-- Sets the default address. -/
def setSite? (config : Config) (value : Json) : Option Config :=
  (value.nat? (Text.limit 32)).map fun n => { config with defaultSite := BitVec.ofNat 32 n }

/-- Sets the width of mnemonics. -/
def setWidth? (config : Config) (value : Json) : Option Config :=
  (value.nat? (Text.limit 64)).map fun n => { config with mnemonicWidth := n }

/-- The settings by name, in the order in which an array lists them. -/
def settings : List (Text × (Config → Json → Option Config)) :=
  [("include_path".toList, setInclude?), ("default_inject".toList, setSite?),
   ("mnemonic_width".toList, setWidth?)]

/-- Reads the values of settings in order, the rest keeping their defaults. -/
def ofItems? (config : Config) :
    List (Text × (Config → Json → Option Config)) → List Json → Option Config
  | _, [] => some config
  | [], _ :: _ => none
  | (_, set) :: settings, value :: items => do ofItems? (← set config value) settings items

/-- Reads named settings. Only the given settings are still allowed to occur. -/
def ofMembers? (config : Config) (settings : List (Text × (Config → Json → Option Config)))
    (seen : List Text) : List (List Nat × Json) → Option Config
  | [] => some config
  | (points, value) :: members => do
    let name ← Json.textOf? points
    match settings.find? (·.1 = name) with
    | none => ofMembers? config settings seen members
    | some (_, set) =>
      if seen.contains name then none
      else ofMembers? (← set config value) settings (name :: seen) members

/-- The configuration that a value denotes. -/
def ofJson? : Json → Option Config
  | .array items => ofItems? default settings items
  | .object members => ofMembers? default settings [] members
  | _ => none

/-- The configuration that a text denotes. -/
def read? (t : Text) : Option Config := (Json.read? t).bind ofJson?

end Config

end CheatCode
