import Flowchart.Value.Basic

/-!
# Libraries for YAML

Texts in YAML are read by a library that is not a part of the program. A run is given one, and all
that the program knows of it is here: a text has a value, or the library fails and says why.

A value is a tree. A collection that holds itself can only be given as deep as a run looks into it,
and not where a message shows it as a whole.
-/

namespace Flowchart.Yaml

/-- The classes of errors that are told apart: three that a user is told about, and the others. -/
inductive ErrorClass where
  | notFound
  | value
  | type
  | other (name : String)
deriving DecidableEq, Repr

/-- Why a library gives no value for a text. -/
inductive Failure where
  /-- An error of YAML, with all that the library says about it. -/
  | malformed (problem : String)
  /-- Any other error: a scalar may have the form of its type and still denote nothing. -/
  | raised (kind : ErrorClass) (problem : String)
deriving DecidableEq, Repr

/-- The message for a failure in the text that comes from `source`, which is only told for an error
of YAML. -/
def Failure.message (source : String) : Failure → String
  | malformed problem => "Failed to parse YAML " ++ source ++ ": " ++ problem
  | raised _ problem => problem

/-- A library: what a text gives. -/
abbrev Library := String → Except Failure Value

end Flowchart.Yaml
