import Flowchart.Yaml.Kind

/-!
# Nodes

The nodes of a document are numbered, and a collection refers to the nodes in it by their numbers.
An alias is the number of the node it stands for, so a node may be in several collections. A node is
numbered after those in it: every number that a node holds is smaller than its own.
-/

namespace Flowchart.Yaml

/-- The type of a node. -/
inductive Tag where
  | scalar (kind : Kind)
  /-- Bytes, written in Base64. -/
  | binary
  | sequence
  | mapping
  /-- A mapping that stands for its keys. -/
  | set
  /-- A sequence of mappings with one entry each, which stands for their entries. -/
  | pairs
  /-- A type that no value here has. -/
  | other
deriving DecidableEq, Repr

/-- What all tags of the language start with. -/
def tagBase : String := "tag:yaml.org,2002:"

/-- The types that have a tag. -/
def knownTags : List (String × Tag) := [
  ("null", .scalar .null), ("bool", .scalar .bool), ("int", .scalar .int),
  ("float", .scalar .float), ("timestamp", .scalar .timestamp), ("merge", .scalar .merge),
  ("value", .scalar .default), ("str", .scalar .text), ("binary", .binary), ("seq", .sequence),
  ("map", .mapping), ("set", .set), ("omap", .pairs), ("pairs", .pairs)]

/-- The type that a tag names. -/
def Tag.ofUri (uri : String) : Tag :=
  ((knownTags.find? fun (name, _) => tagBase ++ name == uri).map Prod.snd).getD .other

/-- Whether the value of a type is made of other values. -/
def Tag.isCollection : Tag → Bool
  | sequence | mapping | set | pairs => true
  | scalar _ | binary | other => false

/-- A node of a document. -/
inductive Node where
  | scalar (tag : Tag) (text : String)
  | sequence (tag : Tag) (items : List Nat)
  | mapping (tag : Tag) (entries : List (Nat × Nat))
deriving DecidableEq, Repr

namespace Node

/-- A node where nothing is written. -/
def empty : Node := scalar (.scalar .null) ""

instance : Inhabited Node := ⟨empty⟩

/-- The type of a node. -/
def tag : Node → Tag
  | scalar tag _ | sequence tag _ | mapping tag _ => tag

/-- The node with another type. -/
def withTag (tag : Tag) : Node → Node
  | scalar _ text => scalar tag text
  | sequence _ items => sequence tag items
  | mapping _ entries => mapping tag entries

end Node

/-- The nodes of a document in the order of their numbers, and the number of the outermost one. -/
structure Document where
  nodes : Array Node
  root : Nat

end Flowchart.Yaml
