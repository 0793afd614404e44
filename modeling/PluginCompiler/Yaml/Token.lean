import PluginCompiler.Yaml.Glyph

/-! The tokens of a YAML text. -/

set_option autoImplicit false

namespace PluginCompiler.Yaml

inductive Directive where
  | version (major : Nat)
  | handle (handle uri : String)
  | other
  deriving DecidableEq, Repr

inductive Kind where
  | streamEnd
  | directive (d : Directive)
  | documentStart
  | documentEnd
  | blockSequenceStart
  | blockMappingStart
  | blockEnd
  | flowSequenceStart
  | flowSequenceEnd
  | flowMappingStart
  | flowMappingEnd
  | blockEntry
  | flowEntry
  | key
  | value
  | alias (name : String)
  | anchor (name : String)
  | tag (handle : Option String) (suffix : String)
  | scalar (text : String) (isPlain : Bool)
  /-- From here on the text names a character by a number that none has. -/
  | noSuchCharacter (number : Nat)
  deriving DecidableEq, Repr

structure Token where
  kind : Kind
  start : Mark
  stop : Mark
  deriving DecidableEq, Repr

inductive Stop where
  | malformed
  | noSuchCharacter (number : Nat)
  deriving DecidableEq, Repr

abbrev Scan (α : Type) := Except Stop α

end PluginCompiler.Yaml
