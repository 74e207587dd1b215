/-!
# Diagnostics

What a conversion reports besides the diagram. A diagnostic is a cause; its severity, its code, its
wording and the action that it is about are functions of the cause.
-/

namespace Flowchart

/-- How much a diagnostic matters. Callers may use words of their own. -/
inductive Severity where
  | info
  | warning
  | other (name : String)
deriving DecidableEq, Repr

namespace Severity

/-- The word for a severity. -/
def name : Severity → String
  | info => "info"
  | warning => "warning"
  | other name => name

/-- The severity that a word stands for. -/
def ofName (name : String) : Severity :=
  if name = "info" then info else if name = "warning" then warning else other name

@[simp] theorem name_ofName (s : String) : (ofName s).name = s := by
  unfold ofName
  repeat' split
  all_goals simp_all [name]

end Severity

/-- A part of a definition that holds actions. -/
inductive Part where
  /-- The action itself. -/
  | action
  /-- The branch taken when a condition fails. -/
  | otherwise
  /-- A case of a switch, by the literal of its key. -/
  | case (literal : String)
  /-- The branch taken when no case applies. -/
  | default
deriving DecidableEq, Repr

/-- The name of a part in a message. -/
def Part.text : Part → String
  | action => "action"
  | otherwise => "else"
  | case literal => "case " ++ literal
  | default => "default"

/-- What is wrong with the definition of an action. -/
inductive Defect where
  /-- The definition is a value of another type. -/
  | notAnObject (typeName : String)
  | runAfter
  | cases
  /-- A part is there and is no object. -/
  | part (part : Part)
  /-- The actions of a part are there and are no object. -/
  | actionsOf (part : Part)
deriving DecidableEq, Repr

/-- The words for a defect. -/
def Defect.text : Defect → String
  | notAnObject typeName => "expected an object, got " ++ typeName ++ "; skipping"
  | runAfter => "runAfter is not an object; ignoring it"
  | cases => "cases is not an object; ignoring it"
  | part p => p.text ++ " is not an object; ignoring it"
  | actionsOf p => p.text ++ ".actions is not an object; ignoring it"

/-- A branch without actions. -/
inductive EmptyBranch where
  | yes
  | no
  | case (name : String)
deriving DecidableEq, Repr

/-- What a diagnostic reports. -/
inductive Diagnostic where
  /-- A part of a definition could not be read. -/
  | malformedAction (action : String) (defect : Defect)
  /-- A name is declared again; `previous` is the path of the earlier declaration. -/
  | duplicateName (name : String) (previous : List String)
  | noStartActions
  | actionNotFound (name : String)
  | dependencyNotFound (action dependency : String)
  /-- An action runs after one that is still being drawn. -/
  | dependencyCycle (action dependency : String)
  | emptyBranch (action : String) (branch : EmptyBranch)
  | noCases (action : String)
  | emptyScope (action kind : String)
  | classDefined (className : String)
  | connected (source target note : String)
  | subgraphStarted (action title : String)
  | subgraphEnded (action title : String)
  /-- The nodes from which the successors of an action continue. -/
  | exitNodes (action : String) (exits : List String)
  /-- A diagnostic worded by a caller. -/
  | custom (severity : Severity) (code message action : String)
deriving DecidableEq, Repr

namespace Diagnostic

/-- A text between double quotes, as it stands. -/
private def inQuotes (s : String) : String := "\"" ++ s ++ "\""

/-- How much the diagnostic matters. -/
def severity : Diagnostic → Severity
  | classDefined _ | connected _ _ _ | subgraphStarted _ _ | subgraphEnded _ _ | exitNodes _ _ =>
    .info
  | custom severity _ _ _ => severity
  | _ => .warning

/-- The code by which a kind of diagnostic is switched off. -/
def code : Diagnostic → String
  | malformedAction _ _ => "W_MALFORMED_ACTION"
  | duplicateName _ _ => "W_DUPLICATE_ACTION_NAME"
  | noStartActions => "W_NO_START_ACTIONS"
  | actionNotFound _ => "W_ACTION_NOT_FOUND"
  | dependencyNotFound _ _ => "W_DEPENDENCY_NOT_FOUND"
  | dependencyCycle _ _ => "W_DEPENDENCY_CYCLE"
  | emptyBranch _ _ => "W_EMPTY_BRANCH"
  | noCases _ => "W_NO_CASES"
  | emptyScope _ _ => "W_EMPTY_SCOPE"
  | classDefined _ => "I_CLASS_DEFINED"
  | connected _ _ _ => "I_CONNECTED"
  | subgraphStarted _ _ => "I_SUBGRAPH_START"
  | subgraphEnded _ _ => "I_SUBGRAPH_END"
  | exitNodes _ _ => "I_EXIT_NODES"
  | custom _ code _ _ => code

/-- The message. -/
def message : Diagnostic → String
  | malformedAction action defect => "Action " ++ inQuotes action ++ ": " ++ defect.text
  | duplicateName name previous =>
    "Action name " ++ inQuotes name ++ " is declared more than once (previously at "
      ++ String.intercalate "/" (previous ++ [name]) ++ "); the later declaration wins."
  | noStartActions => "No starting actions found to connect to Start node."
  | actionNotFound name => "Action " ++ inQuotes name ++ " not found in actions map."
  | dependencyNotFound action dependency =>
    "Dependency " ++ inQuotes dependency ++ " of action " ++ inQuotes action
      ++ " not found in global actions map."
  | dependencyCycle action dependency =>
    "Dependency cycle: action " ++ inQuotes action ++ " runs after " ++ inQuotes dependency
      ++ ", which is still being rendered; connecting from its node only."
  | emptyBranch action branch =>
    "No actions found in "
      ++ (match branch with
        | .yes => "'ifTrue' branch"
        | .no => "'ifFalse' branch"
        | .case name => "case " ++ inQuotes name)
      ++ " of " ++ inQuotes action ++ ". Treating condition node as last node."
  | noCases action => "No cases found in " ++ inQuotes action ++ "."
  | emptyScope action kind =>
    "No child actions found in " ++ kind ++ " " ++ inQuotes action
      ++ ". Treating its node as last node."
  | classDefined className => "Defined class " ++ className
  | connected source target note =>
    "Connected " ++ source ++ " to " ++ target ++ (if note = "" then "" else " (" ++ note ++ ")")
  | subgraphStarted _ title => "Started subgraph: " ++ title
  | subgraphEnded _ title => "Ended subgraph: " ++ title
  | exitNodes action exits =>
    "Action " ++ inQuotes action ++ " has last nodes: " ++ String.intercalate ", " exits
  | custom _ _ message _ => message

/-- The action that the diagnostic is about; the empty text if it is about none. -/
def action : Diagnostic → String
  | malformedAction action _ | dependencyNotFound action _ | dependencyCycle action _
  | emptyBranch action _ | noCases action | emptyScope action _ | subgraphStarted action _
  | subgraphEnded action _ | exitNodes action _ => action
  | duplicateName name _ | actionNotFound name => name
  | noStartActions | classDefined _ | connected _ _ _ => ""
  | custom _ _ _ action => action

/-- The line that shows a diagnostic to a user. -/
def format (d : Diagnostic) : String :=
  d.severity.name ++ ": " ++ d.message

end Diagnostic

end Flowchart
