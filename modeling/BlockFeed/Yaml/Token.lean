/-!
# YAML tokens

What the text of a document is cut into. Besides what is written there are tokens for what only
indentation says: where a block sequence or mapping begins and where it ends. A key that is followed
by a colon on its line gets its `key` token although nothing marks it in the text.
-/

namespace BlockFeed.Yaml

/-- How a scalar is written. -/
inductive ScalarStyle where
  | plain
  | singleQuoted
  | doubleQuoted
  /-- Lines kept, after `|`. -/
  | literal
  /-- Lines joined, after `>`. -/
  | folded
  deriving DecidableEq, Repr, Inhabited

/-- A token of a document. -/
inductive Token where
  | versionDirective (major minor : Nat)
  | tagDirective (handle replacement : String)
  | documentStart
  | documentEnd
  | blockSequenceStart
  | blockMappingStart
  | blockEnd
  | flowSequenceStart
  | flowSequenceEnd
  | flowMappingStart
  | flowMappingEnd
  | blockEntry
  | flowEntry
  | key
  | value
  | alias (name : String)
  | anchor (name : String)
  /-- A tag: a handle that stands for the start of its name, and the rest of the name. -/
  | tag (handle suffix : String)
  | scalar (text : String) (style : ScalarStyle)
  deriving DecidableEq, Repr, Inhabited

end BlockFeed.Yaml
