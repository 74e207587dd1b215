import Flowchart.Table

/-!
# Actions

A workflow is a tree of actions. An action names the actions it runs after and may hold others, in
one body or in several branches.

* `Action` has a variant for each way of holding actions,
* `Action.branches` lists what an action holds in order, each part with its role,
* `Declaration` is an action together with its place in the tree, and `declarations` lists the
  whole tree, each action before the ones it holds.
-/

namespace Flowchart

/-- The kinds of containers that are drawn as one box around their body. -/
inductive ScopeKind where
  | forEach
  | doUntil
  | scope
deriving DecidableEq, Repr

/-- The name of a kind of container. -/
def ScopeKind.name : ScopeKind → String
  | forEach => "Foreach"
  | doUntil => "Until"
  | scope => "Scope"

/-- An action of a workflow. -/
inductive Action where
  /-- A single step of any kind; it may hold actions too. -/
  | simple (kind : String) (runAfter : List String) (body : List (String × Action))
  /-- A choice between two branches. -/
  | condition (runAfter : List String) (yes no : List (String × Action))
  /-- A choice between cases, with a branch for the rest if there is one. -/
  | switch (runAfter : List String) (cases : List (String × List (String × Action)))
      (default : Option (List (String × Action)))
  /-- A container. -/
  | scope (kind : ScopeKind) (runAfter : List String) (body : List (String × Action))

/-- Actions by name, in the order of declaration. -/
abbrev Actions := Table String Action

/-- The part that a group of actions plays in the action that holds them. -/
inductive Role where
  /-- The body, or the branch of a condition that holds. -/
  | actions
  /-- The branch of a condition that fails. -/
  | otherwise
  | case (name : String)
  | default
deriving DecidableEq, Repr

/-- The name of a role. -/
def Role.text : Role → String
  | actions => "actions"
  | otherwise => "else"
  | case name => "case:" ++ name
  | default => "default"

namespace Action

/-- The kind of an action. -/
def kind : Action → String
  | simple kind _ _ => kind
  | condition _ _ _ => "If"
  | switch _ _ _ => "Switch"
  | scope kind _ _ => kind.name

/-- The names of the actions that an action runs after. -/
def runAfter : Action → List String
  | simple _ runAfter _ | condition runAfter _ _ | switch runAfter _ _
  | scope _ runAfter _ => runAfter

/-- The groups of actions that an action holds. -/
def branches : Action → List (Role × Actions)
  | simple _ _ body | scope _ _ body => [(.actions, body)]
  | condition _ yes no => [(.actions, yes), (.otherwise, no)]
  | switch _ cases default =>
    cases.map (fun (name, body) => (.case name, body)) ++ (default.map (Role.default, ·)).toList

end Action

/-- An action and where it is declared. -/
structure Declaration where
  name : String
  action : Action
  /-- The names of the actions around it, outermost first. -/
  path : List String
  /-- The group that declares it. -/
  container : Actions

mutual

/-- The declarations inside an action; `path` ends with its own name. -/
def Action.declarations (path : List String) : Action → List Declaration
  | .simple _ _ body => declarationsFrom path body body
  | .condition _ yes no => declarationsFrom path yes yes ++ declarationsFrom path no no
  | .switch _ cases none => caseDeclarations path cases
  | .switch _ cases (some default) =>
    caseDeclarations path cases ++ declarationsFrom path default default
  | .scope _ _ body => declarationsFrom path body body
termination_by structural a => a

/-- The declarations of the entries of a group and of all they hold. -/
def declarationsFrom (path : List String) (container : Actions) :
    List (String × Action) → List Declaration
  | [] => []
  | (name, action) :: rest =>
    ⟨name, action, path, container⟩
      :: (action.declarations (path ++ [name]) ++ declarationsFrom path container rest)
termination_by structural entries => entries

/-- The declarations in the cases of a switch. -/
def caseDeclarations (path : List String) :
    List (String × List (String × Action)) → List Declaration
  | [] => []
  | (_, body) :: rest => declarationsFrom path body body ++ caseDeclarations path rest
termination_by structural cases => cases

end

/-- Every declaration of a tree. An action comes before the ones it holds, and those before its next
sibling. -/
def Actions.declarations (actions : Actions) : List Declaration :=
  declarationsFrom [] actions actions

end Flowchart
