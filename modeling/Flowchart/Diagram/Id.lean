/-!
# Node identifiers

A diagram names its nodes by words of ASCII letters, digits and underscores that start with a
letter. `nodeId` makes such a word of any action name; names that differ in the characters it
replaces share their identifier.
-/

namespace Flowchart.Diagram

/-- The characters an identifier keeps. -/
def isWordChar (c : Char) : Bool :=
  c.isAlphanum || c == '_'

/-- An underscore for every character that cannot stand in an identifier. -/
def wordImage (name : List Char) : List Char :=
  name.map fun c => if isWordChar c then c else '_'

/-- Puts `N_` before a word that does not start with a letter. -/
def startWithLetter (word : List Char) : List Char :=
  if word.head?.any Char.isAlpha then word else 'N' :: '_' :: word

/-- The identifier of the node of an action. -/
def nodeId (name : String) : String :=
  String.ofList (startWithLetter (wordImage name.toList))

end Flowchart.Diagram
