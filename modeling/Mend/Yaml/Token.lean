import Mend.Yaml.Mark

/-!
# Tokens

The tokens of a YAML text. Blocks begin and end by indentation; their tokens take no characters.
-/

namespace Mend.Yaml

/-- A line before a document that says something about it. -/
inductive Directive
  | version (major : Nat)
  | tag (handle meaning : Text)
  | other
  deriving DecidableEq, Repr

/-- A scalar as it is written: its text, and whether it stands without quotes. -/
structure ScalarText where
  text : Text
  plain : Bool
  deriving DecidableEq, Repr

/-- What a token is. -/
inductive TokenKind
  | streamEnd
  | directive (d : Directive)
  | documentStart
  | documentEnd
  | sequenceStart
  | mappingStart
  | blockEnd
  | flowSequenceStart
  | flowSequenceEnd
  | flowMappingStart
  | flowMappingEnd
  | flowEntry
  | blockEntry
  | key
  | value
  | alias (name : Text)
  | anchor (name : Text)
  | tag (handle : Option Text) (suffix : Text)
  | scalar (s : ScalarText)
  deriving DecidableEq, Repr

/-- The name of a kind of token in messages. -/
def TokenKind.name : TokenKind → Text
  | .streamEnd => "<stream end>"
  | .directive _ => "<directive>"
  | .documentStart => "<document start>"
  | .documentEnd => "<document end>"
  | .sequenceStart => "<block sequence start>"
  | .mappingStart => "<block mapping start>"
  | .blockEnd => "<block end>"
  | .flowSequenceStart => "["
  | .flowSequenceEnd => "]"
  | .flowMappingStart => "\x7b"
  | .flowMappingEnd => "\x7d"
  | .flowEntry => ","
  | .blockEntry => "-"
  | .key => "?"
  | .value => ":"
  | .alias _ => "<alias>"
  | .anchor _ => "<anchor>"
  | .tag _ _ => "<tag>"
  | .scalar _ => "<scalar>"

/-- A token, where it begins and where it ends. -/
structure Token where
  kind : TokenKind
  start : Mark
  stop : Mark

end Mend.Yaml
