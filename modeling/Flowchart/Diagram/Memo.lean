import Flowchart.Diagram.Id
import Flowchart.Table

/-!
# The memory of a walk

A walk over the actions draws each of them once. Its memory says which actions it has come to, in
the order in which it first came to them, and from which nodes the successors of a finished action
continue, in the order in which the actions were finished.
-/

namespace Flowchart.Diagram

/-- How far the drawing of an action has come. -/
inductive Progress where
  | underway
  | done
deriving DecidableEq, Repr

/-- The name of a state. -/
def Progress.name : Progress → String
  | underway => "in_progress"
  | done => "done"

/-- The actions a walk has come to, and the exit nodes of the finished ones. -/
structure Memo where
  visits : Table String Progress
  exits : Table String (List String)
deriving Repr

namespace Memo

/-- Before the walk. -/
def empty : Memo := ⟨[], []⟩

/-- How far an action has come; none if the walk has not come to it. -/
def progress? (m : Memo) (name : String) : Option Progress := m.visits.lookup name

/-- The nodes from which the successors of an action continue. While none are known this is the
node of the action itself. -/
def exitsOf (m : Memo) (name : String) : List String :=
  match m.exits.lookup name with
  | some (first :: rest) => first :: rest
  | _ => [nodeId name]

/-- Marks an action before its drawing starts, so that a cycle ends at it. -/
def start (m : Memo) (name : String) : Memo :=
  { m with visits := m.visits.put name .underway }

/-- Marks an action as drawn and keeps its exit nodes. -/
def finish (m : Memo) (name : String) (exits : List String) : Memo :=
  ⟨m.visits.put name .done, m.exits.put name exits⟩

end Memo

/-- Drops repeated names, keeping the first of each. -/
def unique : List String → List String
  | [] => []
  | x :: rest => x :: (unique rest).filter (· != x)

theorem mem_unique {x : String} {xs : List String} : x ∈ unique xs ↔ x ∈ xs := by
  induction xs with
  | nil => simp [unique]
  | cons y ys ih => by_cases h : x = y <;> simp [unique, h, ih]

theorem nodup_unique (xs : List String) : (unique xs).Nodup := by
  induction xs with
  | nil => simp [unique]
  | cons y ys ih =>
    have : ((unique ys).filter (· != y)).Nodup := List.Pairwise.filter _ ih
    simp [unique, List.nodup_cons, this]

end Flowchart.Diagram
