import Flowchart.Yaml.Lexer
import Flowchart.Yaml.Node

/-!
# Documents

`Document.ofTokens?` builds the nodes of the only document of a text. Tokens are asked for one by
one: a token that does not fit is told before a fault of the lexer behind it.

An alias may not stand inside the collection that it stands for. This is a restriction of the
program: such a collection is good YAML, but its value would be no tree.
-/

namespace Flowchart.Yaml

/-- What has been written before a node. -/
structure Properties where
  anchor : Option String
  tag : Option String

/-- Whether nothing has been written. -/
def Properties.isEmpty (p : Properties) : Bool := p.anchor.isNone && p.tag.isNone

/-- A tag that leaves the type to the node. -/
def Properties.isImplicit (p : Properties) : Bool := p.tag.all (· == "!")

/-- The tag of a collection. -/
def Properties.collectionTag (p : Properties) (default : Tag) : Tag :=
  if p.isImplicit then default else ((p.tag.map Tag.ofUri).getD default)

/-- The tag of a scalar. A plain one has the type that it looks like, and so has any under the tag
that leaves the type to the node. -/
def Properties.scalarTag (p : Properties) (plain : Bool) (text : String) : Tag :=
  match p.tag with
  | none => .scalar (if plain then implicitKind text else .text)
  | some uri => if uri = "!" then .scalar (implicitKind text) else .ofUri uri

namespace Document

/-- The work on a document: the tokens that have not been read and what is wrong behind them, the
nodes so far, the nodes with an anchor, and what the handles of tags stand for. An anchor has no
node before the node is complete. -/
structure Source where
  tokens : Tokens
  nodes : Array Node
  anchors : List (String × Option Nat)
  handles : List (String × String)

/-- A reader of nodes. -/
abbrev Build := StateT Source (Except Error)

/-- Fails. -/
def refuse {α : Type} : Build α := throw .malformed

/-- The next token; none at the end of the text. -/
def peek : Build (Option Token) := do
  match (← get).tokens with
  | ⟨t :: _, _⟩ => return some t
  | ⟨[], some e⟩ => throw e
  | ⟨[], none⟩ => return none

/-- Leaves out the next token. -/
def skip : Build Unit :=
  modify fun s => { s with tokens := ⟨s.tokens.settled.tail, s.tokens.fault⟩ }

/-- Numbers a node. -/
def add (n : Node) : Build Nat :=
  modifyGet fun s => (s.nodes.size, { s with nodes := s.nodes.push n })

/-- A node where nothing is written. -/
def empty : Build Nat := add .empty

/-- Reads a node unless one of `ends` comes next; then nothing is written for it. -/
def emptyBefore (ends : List Token) (read : Build Nat) : Build Nat := do
  match ← peek with
  | some t => if ends.contains t then empty else read
  | none => read

/-! ## Properties -/

/-- The tag that is written with a handle. -/
def resolveTag (handle : Option String) (suffix : String) : Build String := do
  match handle with
  | none => return suffix
  | some handle =>
    match (← get).handles.lookup handle with
    | some replacement => return replacement ++ suffix
    | none => refuse

/-- An anchor, if it is written here. -/
def anchor? : Build (Option String) := do
  match ← peek with
  | some (.anchor name) => skip; return some name
  | _ => return none

/-- The handle and the rest of a tag, if one is written here. -/
def tag? : Build (Option (Option String × String)) := do
  match ← peek with
  | some (.tag handle suffix) => skip; return some (handle, suffix)
  | _ => return none

/-- The anchor and the tag before a node, in either order. -/
def properties : Build Properties := do
  let (anchor, tag) ← match ← anchor? with
    | some name => pure (some name, ← tag?)
    | none =>
      match ← tag? with
      | some tag => pure (← anchor?, some tag)
      | none => pure (none, none)
  return ⟨anchor, ← tag.mapM fun (handle, suffix) => resolveTag handle suffix⟩

/-- Takes an anchor for the node that follows. An anchor is used once. -/
def claim (p : Properties) : Build Unit := do
  if let some name := p.anchor then
    if ((← get).anchors.lookup name).isSome then refuse
    modify fun s => { s with anchors := (name, none) :: s.anchors }

/-- Numbers a node with these properties. -/
def complete (p : Properties) (n : Node) : Build Nat := do
  let id ← add n
  if let some name := p.anchor then
    modify fun s => { s with anchors := (name, some id) :: s.anchors }
  return id

/-- The node that an anchor stands for. It has to be complete. -/
def ofAlias (name : String) : Build Nat := do
  match (← get).anchors.lookup name with
  | some (some id) => return id
  | some none => throw .recursive
  | none => refuse

/-! ## Nodes -/

/-- The items of a block sequence without its own indentation may be followed by these. -/
def itemEnds : List Token := [.blockEntry, .key, .value, .blockEnd]

mutual

/-- A node. Blocks are read if `inBlock`; the items of a sequence may then stand at the indentation
of the mapping around it if `dashes`. -/
def node : Nat → (inBlock dashes : Bool) → Build Nat
  | 0, _, _ => refuse
  | fuel + 1, inBlock, dashes => do
    match ← peek with
    | some (.alias name) => skip; ofAlias name
    | _ =>
      let p ← properties
      -- the next token is asked for before the anchor is taken: its fault is the one that is told
      let next ← peek
      claim p
      complete p (← content fuel inBlock dashes p next)

/-- What a node holds, by its next token. Properties by themselves stand before an empty node. -/
def content : Nat → (inBlock dashes : Bool) → Properties → Option Token → Build Node
  | 0, _, _, _, _ => refuse
  | fuel + 1, inBlock, dashes, p, next =>
    match next, inBlock, dashes with
    | some (.scalar plain text), _, _ => do
      skip
      return .scalar (p.scalarTag plain text) text
    | some .flowSequenceStart, _, _ => do
      skip
      return .sequence (p.collectionTag .sequence) (← flowItems fuel true)
    | some .flowMappingStart, _, _ => do
      skip
      return .mapping (p.collectionTag .mapping) (← flowEntries fuel true)
    | some .blockSequenceStart, true, _ => do
      skip
      return .sequence (p.collectionTag .sequence) (← blockItems fuel)
    | some .blockMappingStart, true, _ => do
      skip
      return .mapping (p.collectionTag .mapping) (← blockEntries fuel)
    | some .blockEntry, _, true =>
      return .sequence (p.collectionTag .sequence) (← dashedItems fuel)
    | _, _, _ => if p.isEmpty then refuse else return .scalar (p.scalarTag true "") ""

/-- The items of a block sequence. -/
def blockItems : Nat → Build (List Nat)
  | 0 => refuse
  | fuel + 1 => do
    match ← peek with
    | some .blockEntry =>
      skip
      let item ← emptyBefore [.blockEntry, .blockEnd] (node fuel true false)
      return item :: (← blockItems fuel)
    | some .blockEnd => skip; return []
    | _ => refuse

/-- The items of a sequence at the indentation of the mapping around it. -/
def dashedItems : Nat → Build (List Nat)
  | 0 => refuse
  | fuel + 1 => do
    match ← peek with
    | some .blockEntry =>
      skip
      let item ← emptyBefore itemEnds (node fuel true false)
      return item :: (← dashedItems fuel)
    | _ => return []

/-- The entries of a block mapping. -/
def blockEntries : Nat → Build (List (Nat × Nat))
  | 0 => refuse
  | fuel + 1 => do
    match ← peek with
    | some .key =>
      skip
      let key ← emptyBefore [.key, .value, .blockEnd] (node fuel true true)
      let value ← match ← peek with
        | some .value =>
          skip
          emptyBefore [.key, .value, .blockEnd] (node fuel true true)
        | _ => empty
      return (key, value) :: (← blockEntries fuel)
    | some .blockEnd => skip; return []
    | _ => refuse

/-- The items of a sequence in brackets. An item with a key is a mapping of one entry. -/
def flowItems : Nat → (isFirst : Bool) → Build (List Nat)
  | 0, _ => refuse
  | fuel + 1, isFirst => do
    match ← peek, isFirst with
    | some .flowSequenceEnd, _ => skip; return []
    | some .flowEntry, false => skip
    | _, true => pure ()
    | _, false => refuse
    match ← peek with
    | some .flowSequenceEnd => skip; return []
    | some .key =>
      skip
      let key ← emptyBefore [.value, .flowEntry, .flowSequenceEnd] (node fuel false false)
      let value ← match ← peek with
        | some .value =>
          skip
          emptyBefore [.flowEntry, .flowSequenceEnd] (node fuel false false)
        | _ => empty
      let item ← add (.mapping .mapping [(key, value)])
      return item :: (← flowItems fuel false)
    | _ =>
      let item ← node fuel false false
      return item :: (← flowItems fuel false)

/-- The entries of a mapping in braces. -/
def flowEntries : Nat → (isFirst : Bool) → Build (List (Nat × Nat))
  | 0, _ => refuse
  | fuel + 1, isFirst => do
    match ← peek, isFirst with
    | some .flowMappingEnd, _ => skip; return []
    | some .flowEntry, false => skip
    | _, true => pure ()
    | _, false => refuse
    match ← peek with
    | some .flowMappingEnd => skip; return []
    | some .key =>
      skip
      let key ← emptyBefore [.value, .flowEntry, .flowMappingEnd] (node fuel false false)
      let value ← match ← peek with
        | some .value =>
          skip
          emptyBefore [.flowEntry, .flowMappingEnd] (node fuel false false)
        | _ => empty
      return (key, value) :: (← flowEntries fuel false)
    | _ =>
      let key ← node fuel false false
      let value ← empty
      return (key, value) :: (← flowEntries fuel false)

end

/-! ## Markers and directives -/

/-- What handles stand for where no directive says otherwise. -/
def defaultHandles : List (String × String) := [("!", "!"), ("!!", tagBase)]

/-- The directives at the start of a document: at most one version, which is 1, and each handle
once. -/
def directives : Nat → (hasVersion : Bool) → (handles : List (String × String)) →
    Build (List (String × String))
  | 0, _, _ => refuse
  | fuel + 1, hasVersion, handles => do
    match ← peek with
    | some (.directive (.version major)) =>
      skip
      if hasVersion || major != 1 then refuse else directives fuel true handles
    | some (.directive (.tagHandle handle replacement)) =>
      skip
      if (handles.lookup handle).isSome then refuse
      else directives fuel hasVersion ((handle, replacement) :: handles)
    | some (.directive .other) =>
      skip
      directives fuel hasVersion handles
    | _ => return handles ++ defaultHandles

/-- What starts a document: nothing, or directives and a marker. Gives whether there is a marker. -/
def start (fuel : Nat) : Build Bool := do
  match ← peek with
  | some (.directive _) | some .documentStart =>
    let handles ← directives fuel false []
    match ← peek with
    | some .documentStart => skip
    | _ => refuse
    modify fun s => { s with handles }
    return true
  | _ => return false

/-- What ends the text: markers behind the document, and no other document. -/
def finish : Nat → Build Unit
  | 0 => refuse
  | fuel + 1 => do
    match ← peek with
    | none => return ()
    | some .documentEnd =>
      skip
      finish fuel
    | some _ =>
      -- a second document is refused, unless its directives have a fault that is told first
      let _ ← start fuel
      refuse

/-- The outermost node. Behind a marker there may be none. -/
def outermost (fuel : Nat) (isMarked : Bool) : Build Nat := do
  match ← peek, isMarked with
  | none, true | some (.directive _), true | some .documentStart, true | some .documentEnd, true =>
    empty
  | _, _ => node fuel true false

/-- The outermost node of the only document; none if there is no document at all. -/
def only? (fuel : Nat) : Build (Option Nat) := do
  match ← peek with
  | none => return none
  | some _ =>
    let id ← outermost fuel (← start fuel)
    finish fuel
    return some id

/-- The only document of a text, if there is one. Of three steps of the readers at least one takes a
token, which bounds the depth. -/
def ofTokens? (tokens : Tokens) : Except Error (Option Document) := do
  let fuel := 3 * tokens.settled.length + 3
  let (root?, s) ← (only? fuel).run ⟨tokens, #[], [], defaultHandles⟩
  return root?.map fun root => ⟨s.nodes, root⟩

end Document

end Flowchart.Yaml
