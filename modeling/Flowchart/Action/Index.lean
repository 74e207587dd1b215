import Flowchart.Action.Basic
import Flowchart.Diagnostic.Basic

/-!
# The index of actions

Names are global: an action may run after one in any other part of the tree. The index gives the
declaration of a name. A name that is declared again is reported, and the later declaration takes
the place of the earlier one.
-/

namespace Flowchart

/-- The declaration that holds for each name, in the order in which the names first occur. -/
abbrev Index := Table String Declaration

namespace Index

/-- Adds a declaration, and reports the one it replaces. -/
def add (index : Index) (d : Declaration) : Index × List Diagnostic :=
  (index.put d.name d,
    ((index.lookup d.name).map fun previous => .duplicateName d.name previous.path).toList)

/-- Adds declarations one after another. -/
def addAll (index : Index) : List Declaration → Index × List Diagnostic
  | [] => (index, [])
  | d :: rest =>
    let (index, reports) := index.add d
    let (index, more) := addAll index rest
    (index, reports ++ more)

/-- The index of a tree of actions. -/
def ofActions (actions : Actions) : Index × List Diagnostic :=
  addAll [] actions.declarations

end Index

end Flowchart
