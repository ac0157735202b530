import Vendoring.Yaml.Cursor

/-!
# Tokens of a document

A token is the smallest unit with a meaning of its own. Besides those that are written, there are
tokens for the start and end of a block, which indentation alone shows.
-/

namespace Vendoring.Yaml

/-- How a scalar is written. Only a plain one can stand for something else than text. -/
inductive ScalarStyle where
  | plain
  | singleQuoted
  | doubleQuoted
  | literal
  | folded
deriving DecidableEq

/-- The smallest meaningful units of a document. -/
inductive Token where
  | streamStart
  | streamEnd
  | versionDirective (major minor : Nat)
  | tagDirective (handle tagPrefix : List Char)
  | documentStart
  | documentEnd
  | blockSequenceStart
  | blockMappingStart
  | blockEnd
  | flowSequenceStart
  | flowSequenceEnd
  | flowMappingStart
  | flowMappingEnd
  | flowEntry
  | blockEntry
  | key
  | value
  | alias (name : List Char)
  | anchor (name : List Char)
  | tag (handle suffix : List Char)
  | scalar (text : List Char) (style : ScalarStyle)
deriving DecidableEq

/-- A token with the places where it starts and ends. -/
structure PlacedToken where
  token : Token
  start : Mark
  stop : Mark

end Vendoring.Yaml
