import Flowchart.Table
import Flowchart.Text.Base64
import Flowchart.Value.Basic
import Flowchart.Yaml.Node
import Flowchart.Yaml.Number

/-!
# The values of nodes

A document is valued level by level. On the way to a level all scalars in it are read; the
collections in it are left for the next level. So of two faults the one closer to the top is told,
and of two on one level the first. When all levels are done, the values are put together from the
inside to the outside.

* A key `<<` merges mappings into its own: their entries come first, and the entries of the mapping
  itself override them. Of a list of mappings the last comes first, and the first overrides.
* A key `=` becomes a text when the mapping that holds it is reached, and everywhere else too.
* A collection is no key, whatever is in it.
-/

namespace Flowchart.Yaml

/-! ## Scalars -/

/-- The day or the time that a scalar denotes. -/
def readTimestamp (text : String) : Except Error Value :=
  match date? 1 (dropLineFeed text.toList) with
  | none => throw .noTimestamp
  | some ((year, month, day), rest) =>
    let date : Date := ⟨year, month, day⟩
    if rest.isEmpty then (date.check.map Value.date).mapError .calendar
    else
      match time? rest with
      | none => throw .noTimestamp
      | some t =>
        -- microseconds: further digits are cut off, missing ones are zeros
        let digits := (t.fraction ++ List.replicate 6 '0').take 6
        let time : Timestamp :=
          ⟨date, t.hour, t.minute, t.second, Decimal.ofDigits digits, t.zone⟩
        (time.check.map Value.timestamp).mapError .calendar

/-- The truth value that a word denotes, in whatever case it is written. -/
def readBool (text : String) : Except Error Bool :=
  let word := Text.lower text
  if trueWords.contains word then pure true
  else if falseWords.contains word then pure false
  else throw (.truthValue word)

/-- The bytes that a text in Base64 denotes. -/
def readBinary (text : String) : Except Error (List UInt8) :=
  match Text.Base64.decode? text.toList with
  | some bytes => if text.toList.all (·.toNat < 0x80) then pure bytes else throw .malformed
  | none => throw .malformed

/-- The value of a text under a tag. -/
def readScalar (tag : Tag) (text : String) : Except Error Value :=
  match tag with
  | .scalar .null => pure .null
  | .scalar .bool => Value.bool <$> readBool text
  | .scalar .int => Value.int <$> readInt text
  | .scalar .float => Value.float <$> readFloat text
  | .scalar .timestamp => readTimestamp text
  | .scalar .text => pure (.str text)
  | .binary => Value.bytes <$> readBinary text
  | _ => throw .malformed

/-! ## Keys -/

/-- A key of a mapping, and the node it is from. The keys that the word `.nan` writes are all one
key, so they have no node. -/
structure Key where
  owner : Option Nat
  value : Value

/-- Keys are the same if they are from one node or have the same value. -/
instance : BEq Key := ⟨fun a b => a.owner == b.owner || a.value == b.value⟩

/-! ## The work -/

/-- What is known of a node that has been reached. -/
inductive Reached where
  /-- A scalar with its value. As a key it may have no owner. -/
  | scalar (v : Value) (isShared : Bool)
  | collection

/-- The nodes, with all merging done as far as mappings have been reached, and what is known of
each. -/
structure Valuation where
  nodes : Array Node
  reached : Array (Option Reached)

namespace Valuation

/-- Before anything is reached. -/
def ofDocument (d : Document) : Valuation :=
  ⟨d.nodes, Array.replicate d.nodes.size none⟩

/-- A step of the work. -/
abbrev Work := StateT Valuation (Except Error)

/-- Fails. -/
def refuse {α : Type} : Work α := throw .malformed

/-- The node with a number. -/
def node (id : Nat) : Work Node := return (← get).nodes.getD id .empty

/-- Changes the node with a number. -/
def setNode (id : Nat) (n : Node) : Work Unit :=
  modify fun v => { v with nodes := v.nodes.setIfInBounds id n }

/-- Says what is known of a node. -/
def setReached (id : Nat) (r : Reached) : Work Unit :=
  modify fun v => { v with reached := v.reached.setIfInBounds id (some r) }

/-- The text of a node as a scalar; a mapping has the text of its first entry `=`. The number of a
node bounds the depth. -/
def text : Nat → Nat → Work String
  | 0, _ => refuse
  | fuel + 1, id => do
    match ← node id with
    | .scalar _ text => return text
    | .sequence _ _ => refuse
    | .mapping _ entries =>
      match ← entries.findM? fun (k, _) => return (← node k).tag = .scalar .default with
      | some (_, v) => text fuel v
      | none => refuse

/-- Reads a node as a scalar. -/
def scalar (id : Nat) : Work Reached := do
  let n ← node id
  let text ← text (id + 1) id
  match n.tag, n with
  | .scalar .timestamp, .mapping _ _ => throw .timestampEntries
  | tag, _ => return .scalar (← readScalar tag text) (tag = .scalar .float && isNanWord text)

/-- Comes to a node. Gives it back if it is a collection that has not been reached before. -/
def reach (id : Nat) : Work (List Nat) := do
  -- aliases lead to one node more than once
  if ((← get).reached.getD id none).isSome then return []
  if (← node id).tag.isCollection then
    setReached id .collection
    return [id]
  else
    setReached id (← scalar id)
    return []

/-- Comes to the nodes of an entry. -/
def reachEntry (entry : Nat × Nat) : Work (List Nat) :=
  return (← reach entry.1) ++ (← reach entry.2)

/-- Comes to an entry of a mapping, whose key has to be no collection. -/
def reachKeyed (entry : Nat × Nat) : Work (List Nat) := do
  if (← node entry.1).tag.isCollection then refuse
  reachEntry entry

mutual

/-- The entries of a mapping with those it merges, which are put in the place of its keys `<<`. The
number of a node bounds the depth. -/
def flatten : Nat → Nat → Work (List (Nat × Nat))
  | 0, _ => refuse
  | fuel + 1, id => do
    match ← node id with
    | .mapping tag entries =>
      let parts ← entries.mapM fun (key, source) => do
        let k ← node key
        if k.tag = .scalar .merge then return (← mergedFrom fuel source, [])
        if k.tag = .scalar .default then setNode key (k.withTag (.scalar .text))
        return ([], [(key, source)])
      -- what is merged comes first, so that the entries of the mapping itself override it
      let entries := parts.flatMap Prod.fst ++ parts.flatMap Prod.snd
      setNode id (.mapping tag entries)
      return entries
    | _ => refuse

/-- The entries that a mapping or a sequence of mappings gives to the mapping that merges it. -/
def mergedFrom : Nat → Nat → Work (List (Nat × Nat))
  | 0, _ => refuse
  | fuel + 1, id => do
    match ← node id with
    | .mapping _ _ => flatten fuel id
    | .sequence _ items => return (← items.mapM (flatten fuel)).reverse.flatten
    | .scalar _ _ => refuse

end

/-- The only entry of a mapping. -/
def single (id : Nat) : Work (Nat × Nat) := do
  match ← node id with
  | .mapping _ [entry] => return entry
  | _ => refuse

/-- Comes to the nodes in a collection. Gives the collections among them. -/
def enter (id : Nat) : Work (List Nat) := do
  match ← node id with
  | .sequence .sequence items => return (← items.mapM reach).flatten
  | .sequence .pairs items =>
    return (← items.mapM fun item => do reachEntry (← single item)).flatten
  | .mapping .mapping _ | .mapping .set _ =>
    return (← (← flatten (2 * id + 2) id).mapM reachKeyed).flatten
  | _ => refuse

/-- Comes to all levels below some collections. Each level has a collection of its own, so the
number of nodes bounds the levels. -/
def enterAll : Nat → List Nat → Work Unit
  | 0, _ => pure ()
  | _, [] => pure ()
  | fuel + 1, ids => do enterAll fuel (← ids.mapM enter).flatten

/-! ## Values -/

/-- The key that a node is, given the values of the nodes. -/
def key (v : Valuation) (values : Array Value) (id : Nat) : Key :=
  let owner := match v.reached.getD id none with
    | some (.scalar _ true) => none
    | _ => some id
  ⟨owner, values.getD id .null⟩

/-- The value of a node, given the values of the nodes before it. -/
def valueOf (v : Valuation) (values : Array Value) (id : Nat) : Value :=
  let value (id : Nat) : Value := values.getD id .null
  match v.reached.getD id none, v.nodes.getD id .empty with
  | some (.scalar w _), _ => w
  | some .collection, .sequence .pairs items =>
    .list (items.map fun item =>
      match v.nodes.getD item .empty with
      | .mapping _ [(k, w)] => .pair (value k) (value w)
      | _ => .null)
  | some .collection, .sequence _ items => .list (items.map value)
  | some .collection, .mapping tag entries =>
    let table := Table.ofEntries (entries.map fun (k, w) => (v.key values k, value w))
    if tag = .set then .set (table.keys.map Key.value)
    else .map (table.map fun (k, w) => (k.value, w))
  | _, _ => .null

/-- The values of all nodes. -/
def values (v : Valuation) : Array Value :=
  (List.range v.nodes.size).foldl (fun values id => values.push (v.valueOf values id)) #[]

end Valuation

/-- The value of a document. -/
def Document.value (d : Document) : Except Error Value := do
  let work : Valuation.Work Unit := do
    Valuation.enterAll (d.nodes.size + 1) (← Valuation.reach d.root)
  let (_, v) ← work.run (.ofDocument d)
  return v.values.getD d.root .null

end Flowchart.Yaml
