import Flowchart.Text.Blank

/-!
# Pages

The two forms in which a diagram is kept in a file: by itself, or in a page of Markdown under a
title. In both it ends with exactly one line break, whatever blanks come after it.
-/

namespace Flowchart

/-- A text without blanks at its end. -/
private def withoutEnd (code : String) : String :=
  String.ofList (Text.trimEnd code.toList)

/-- A fenced block of Markdown that holds a diagram. -/
def fencedBlock (code : String) : String :=
  "\x60\x60\x60mermaid\n" ++ withoutEnd code ++ "\n\x60\x60\x60\n"

/-- A page with a title and a diagram. -/
def markdownPage (title code : String) : String :=
  "# " ++ title ++ "\n\n" ++ fencedBlock code

/-- A diagram by itself. -/
def plainPage (code : String) : String :=
  withoutEnd code ++ "\n"

end Flowchart
