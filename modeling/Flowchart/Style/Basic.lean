import Flowchart.Table

/-!
# Styles

The look of an action depends on its kind. A style gives the colours, the shape and the class under
which the diagram defines them; several kinds may share a class.

* `builtIn` is the table of the kinds known without configuration,
* `styleFor` resolves a kind, `classStyle` a class, each with overrides first.
-/

namespace Flowchart

/-- The outline of a node. A name that the diagram has no outline for is kept, and drawn rounded. -/
inductive Shape where
  | diamond
  | rectangle
  | circle
  | rounded
  | other (name : String)
deriving DecidableEq, Repr

namespace Shape

/-- The name of a shape in a style table. -/
def name : Shape → String
  | diamond => "diamond"
  | rectangle => "rectangle"
  | circle => "circle"
  | rounded => "rounded"
  | other name => name

/-- The shape that a style table calls `name`. -/
def ofName (name : String) : Shape :=
  if name = "diamond" then diamond
  else if name = "rectangle" then rectangle
  else if name = "circle" then circle
  else if name = "rounded" then rounded
  else other name

@[simp] theorem name_ofName (s : String) : (ofName s).name = s := by
  unfold ofName
  repeat' split
  all_goals simp_all [name]

/-- The shapes an override may ask for. -/
def supported : List Shape := [diamond, rectangle, rounded]

end Shape

/-- The look shared by the actions of a class. -/
structure Style where
  fill : String
  stroke : String
  shape : Shape
  className : String
deriving DecidableEq, Repr

/-- Styles by kind of action. -/
abbrev StyleTable := Table String Style

namespace Style

/-- A style in the class that carries its kind's name. -/
private def ofKind (kind fill stroke : String) (shape : Shape) : String × Style :=
  (kind, ⟨fill, stroke, shape, kind⟩)

/-- The styles of the well-known kinds. Appending to a variable looks like setting one. -/
def builtIn : StyleTable := [
  ofKind "If" "#FFE0B2" "#FF6D00" .diamond,
  ofKind "Switch" "#BBDEFB" "#2962FF" .diamond,
  ofKind "Foreach" "#C8E6C9" "#00C853" .rectangle,
  ofKind "Until" "#C8E6C9" "#00C853" .rectangle,
  ofKind "SetVariable" "#FFF9C4" "#FFEB3B" .rectangle,
  ofKind "Scope" "#BBDEFB" "#2962FF" .rectangle,
  ofKind "Terminate" "#FFCDD2" "#C62828" .rectangle,
  ofKind "RunScript" "#B3E5FC" "#0277BD" .rectangle,
  ofKind "SendEmail" "#FFECB3" "#FFA000" .rectangle,
  ofKind "Compose" "#FFFFFF" "#000000" .rectangle,
  ofKind "Response" "#FFFFFF" "#000000" .rectangle,
  ofKind "InitializeVariable" "#FFFFFF" "#000000" .rectangle,
  ("AppendToStringVariable", ⟨"#FFF9C4", "#FFEB3B", .rectangle, "SetVariable"⟩),
  ofKind "OpenApiConnection" "#FFFFFF" "#000000" .rectangle,
  ofKind "Http" "#FFFFFF" "#000000" .rectangle,
  ofKind "Expression" "#E1BEE7" "#8E24AA" .rectangle,
  ofKind "Workflow" "#FFCCBC" "#E64A19" .rectangle]

/-- The style of a kind or class that no table knows, in the class given. -/
def plain (className : String) : Style :=
  ⟨"#FFFFFF", "#000000", .rectangle, className⟩

/-- The style found for a kind in the overrides or else in the built-in table. -/
def known? (overrides : StyleTable) (kind : String) : Option Style :=
  (overrides.lookup kind).or (builtIn.lookup kind)

end Style

/-- The style of a kind. All unknown kinds share one class. -/
def styleFor (overrides : StyleTable) (kind : String) : Style :=
  (Style.known? overrides kind).getD (Style.plain "Default")

/-- The style that defines a class: the first one in that class, overrides before built-in ones. -/
def classStyle (overrides : StyleTable) (className : String) : Style :=
  (((overrides ++ Style.builtIn).map Prod.snd).find? (·.className == className)).getD
    (Style.plain className)

end Flowchart
