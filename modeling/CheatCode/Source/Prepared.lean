import CheatCode.Config
import CheatCode.Source.Sanitize

/-!
# Source prepared for the assembler

Prepared source starts with three lines: the configured include, the definition of
the address of insertion, and an empty line. The lines of the source follow, made
acceptable to the assembler, without blank lines and without the include itself.
The first of them may name the address.
-/

namespace CheatCode.Source

/-- Source as the assembler gets it. -/
structure Prepared where
  /-- The whole text. -/
  text : Text
  /-- The address of insertion that the source names. -/
  site : Option Word
  deriving DecidableEq

/-- How many lines stand before those of the source. -/
def leadingLines : Nat := 3

/-- The address of insertion that a line names. -/
def namedSite? (line : Text) : Option Word :=
  let opening := "#inject(0x".toList
  let rest := line.drop opening.length
  if opening.isPrefixOf line && (rest.take 8).length = 8 && rest[8]? = some ')' then
    (Text.readDigits? 16 (Text.limit 32) (rest.take 8)).map (BitVec.ofNat 32)
  else none

/-- The lines of a source that are kept, without blanks at their ends. -/
def keptLines (config : Config) (source : Text) : List Text :=
  ((Text.lines source).filter fun line =>
    !Text.contains config.includeDirective line && Text.trim line ≠ []).map Text.trim

namespace Prepared

/-- The address of insertion, by default that of the configuration. -/
def siteUnder (p : Prepared) (config : Config) : Word := p.site.getD config.defaultSite

/-- Nothing has been prepared. -/
def empty : Prepared := ⟨[], none⟩

/-- The source as the assembler gets it. -/
def ofSource (config : Config) (source : Text) : Prepared :=
  let kept := keptLines config source
  let site := kept.head?.bind namedSite?
  let definition := ".set INJECTADDR, 0x".toList ++ (site.getD config.defaultSite).digits
  let body := Text.unlines (kept.map sanitizeLine)
  ⟨Text.unlines [config.includeDirective, definition, [], body, []], site⟩

end Prepared

end CheatCode.Source
