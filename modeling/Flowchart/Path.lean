/-!
# Paths

A path is a list of components under a root. Empty components and `.` mean nothing and are left
out; `..` stays, since what it means depends on the files.
-/

namespace Flowchart

/-- A path of a file. -/
structure Path where
  /-- Slashes for an absolute path, nothing for a relative one. -/
  root : String
  parts : List String
deriving DecidableEq, Repr

namespace Path

/-- Splits at every slash. -/
def splitSlashes (s : List Char) : List (List Char) :=
  match s with
  | [] => [[]]
  | c :: rest =>
    match splitSlashes rest with
    | [] => [[c]]
    | part :: parts => if c == '/' then [] :: part :: parts else (c :: part) :: parts

/-- The slashes at the start of a path: exactly two of them are kept, any other number is one. -/
def rootOf (s : List Char) : String :=
  match (s.takeWhile (· == '/')).length with
  | 0 => ""
  | 2 => "//"
  | _ => "/"

/-- The path that a text writes. -/
def ofString (s : String) : Path :=
  let parts := (splitSlashes s.toList).map String.ofList
  ⟨rootOf s.toList, parts.filter fun part => part != "" && part != "."⟩

/-- The text of a path; a path without components is a dot. -/
def text (p : Path) : String :=
  let s := p.root ++ String.intercalate "/" p.parts
  if s = "" then "." else s

/-- The last component. -/
def name (p : Path) : String := p.parts.getLast?.getD ""

/-- The path of the directory that holds the file. -/
def parent (p : Path) : Path := { p with parts := p.parts.dropLast }

/-- The characters of the last component from its last dot on, and those before. A dot at either end
is no such dot. -/
def splitName (p : Path) : List Char × List Char :=
  let name := p.name.toList
  let extension := (name.reverse.takeWhile (· != '.')).reverse
  let stem := name.take (name.length - extension.length - 1)
  if extension.isEmpty || stem.isEmpty then (name, []) else (stem, '.' :: extension)

/-- The last component without its extension. -/
def stem (p : Path) : String := String.ofList p.splitName.1

/-- The extension of the last component, with its dot. -/
def suffix (p : Path) : String := String.ofList p.splitName.2

end Path

end Flowchart
