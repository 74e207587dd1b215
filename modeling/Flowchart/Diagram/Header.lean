import Flowchart.Yaml.Printer

/-!
# The header of a diagram

A diagram starts with the direction in which it flows. Before that, front matter in YAML may give a
title and the engine that lays the diagram out.
-/

namespace Flowchart.Diagram

/-- What the header says. -/
structure Header where
  direction : String
  layout : Option String
  title : Option String
deriving DecidableEq, Repr

namespace Header

/-- A text that is given and not empty. -/
def present? (text : Option String) : Option String := text.filter (· != "")

/-- The entries of the front matter. -/
def frontMatter (h : Header) : List String :=
  ((present? h.title).map (Yaml.entry 0 "title")).toList
    ++ ((present? h.layout).map fun layout => "config:\n" ++ Yaml.entry 2 "layout" layout).toList

/-- The lines before the body of the diagram. -/
def render (h : Header) : String :=
  let fence := if h.frontMatter.isEmpty then [] else ["---"]
  String.join
    ((fence ++ h.frontMatter ++ fence ++ ["graph " ++ h.direction]).map (· ++ "\n"))

end Header

end Flowchart.Diagram
