/-!
# YAML tokens

The pieces of a YAML text.  Where a block collection begins and ends is a matter of indentation in the
text, and has tokens of its own.
-/
namespace DataRepository.Yaml

/-- A piece of a YAML text. -/
inductive Token where
  | version
  | tagDirective (handle start : String)
  | documentStart
  | documentEnd
  | blockSequenceStart
  | blockMappingStart
  | blockEnd
  | flowSequenceStart
  | flowSequenceEnd
  | flowMappingStart
  | flowMappingEnd
  | blockEntry
  | flowEntry
  | key
  | value
  | anchor (name : String)
  | alias (name : String)
  | tag (handle suffix : String)
  | scalar (isPlain : Bool) (text : String)
deriving DecidableEq

end DataRepository.Yaml
