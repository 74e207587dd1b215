/-!
# Tokens of YAML

The layout of a text is resolved by its tokens: the starts and ends of blocks are tokens, and so is
the start of a key even where nothing is written for it.
-/

namespace Flowchart.Yaml

/-- A line before a document that says how to read it. -/
inductive Directive where
  /-- The version of the language. -/
  | version (major : Nat)
  /-- What a handle at the start of a tag stands for. -/
  | tagHandle (handle replacement : String)
  | other
deriving DecidableEq, Repr

/-- A token. -/
inductive Token where
  | directive (d : Directive)
  | documentStart
  | documentEnd
  | blockSequenceStart
  | blockMappingStart
  | blockEnd
  | flowSequenceStart
  | flowSequenceEnd
  | flowMappingStart
  | flowMappingEnd
  /-- The comma between entries. -/
  | flowEntry
  /-- The dash before an item. -/
  | blockEntry
  | key
  | value
  | alias (name : String)
  | anchor (name : String)
  | tag (handle : Option String) (suffix : String)
  | scalar (plain : Bool) (text : String)
deriving DecidableEq, Repr

end Flowchart.Yaml
