import Flowchart.Path
import Flowchart.Table
import Flowchart.Text.Quoted

/-!
# File trees

The files below a working directory. A path is followed component by component, and every component
but the last has to be a directory. Paths and components have a greatest length in bytes, and no
path holds the character NUL.

* `FileTree.find` says what is at a path,
* `FileTree.read` gives the content of a file,
* `FileTree.write` writes a file, and makes the directories around it first.
-/

namespace Flowchart

/-- A place in a file tree, as the names on the way from the working directory. A slash in front
means that the way starts at the root of all files. -/
abbrev Place := List String

/-- Files and directories. The working directory itself is always there. -/
structure FileTree where
  files : Table Place ByteArray
  directories : List Place

/-- What is found at a path. -/
inductive Found where
  | file (content : ByteArray)
  | directory
  | missing
  /-- A file stands where the path needs a directory. -/
  | blocked
  /-- The path, or a component that was come to, is too long. -/
  | tooLong
  /-- The path holds a character that no path can hold. -/
  | nul

/-- Why a file cannot be read. -/
inductive ReadError where
  | missing (path : Path)
  | isDirectory (path : Path)
  | tooLong (path : Path)
deriving DecidableEq, Repr

/-- Why a file cannot be written. -/
inductive WriteError where
  /-- The path is a directory. -/
  | isDirectory (path : Path)
  /-- The directory around the file is a file. -/
  | isFile (path : Path)
  /-- A directory further up is a file. -/
  | blocked (path : Path)
  | tooLong (path : Path)
  /-- The path holds the character NUL. -/
  | nul
deriving DecidableEq, Repr

/-- The message about a directory where a file is wanted. -/
def isDirectoryMessage (path : Path) : String :=
  "[Errno 21] Is a directory: " ++ Text.quoted path.text

/-- The message about a path that is too long. -/
def tooLongMessage (path : Path) : String :=
  "[Errno 36] File name too long: " ++ Text.quoted path.text

/-- The message for an error. -/
def ReadError.message : ReadError → String
  | missing path => path.text
  | isDirectory path => isDirectoryMessage path
  | tooLong path => tooLongMessage path

/-- The message for an error. -/
def WriteError.message : WriteError → String
  | isDirectory path => isDirectoryMessage path
  | isFile path => "[Errno 17] File exists: " ++ Text.quoted path.text
  | blocked path => "[Errno 20] Not a directory: " ++ Text.quoted path.text
  | tooLong path => tooLongMessage path
  | nul => "embedded null byte"

namespace FileTree

/-- No files. -/
def empty : FileTree := ⟨[], []⟩

/-- Whether a place is sure to be a directory: the working directory, those around it, and the root
of all files. -/
def isOutermost (p : Place) : Bool :=
  p == ["/"] || p.all (· == "..")

/-- Whether a place is a directory. -/
def isDirectory (t : FileTree) (p : Place) : Bool :=
  isOutermost p || t.directories.contains p

/-- The place that a component leads to. There is nothing above the root of all files. -/
def step (p : Place) (part : String) : Place :=
  if part != ".." then p ++ [part]
  else if p == ["/"] then p
  else if isOutermost p then p ++ [part]
  else p.dropLast

/-- The most bytes of a path. -/
def maxPathBytes : Nat := 4095

/-- The most bytes of a component. -/
def maxNameBytes : Nat := 255

/-- Follows components from a place. Gives the place where they end, or what is in the way. -/
def follow (t : FileTree) (p : Place) : List String → Except Found Place
  | [] => pure p
  | part :: rest =>
    if t.isDirectory p then
      if maxNameBytes < part.utf8ByteSize then throw .tooLong else t.follow (step p part) rest
    else if (t.files.lookup p).isSome then throw .blocked
    else throw .missing

/-- The place of a path. -/
def place (t : FileTree) (p : Path) : Except Found Place :=
  if p.text.contains '\x00' then throw .nul
  else if maxPathBytes < p.text.utf8ByteSize then throw .tooLong
  else t.follow (if p.root = "" then [] else ["/"]) p.parts

/-- What is at a place. -/
def atPlace (t : FileTree) (p : Place) : Found :=
  if t.isDirectory p then .directory
  else
    match t.files.lookup p with
    | some content => .file content
    | none => .missing

/-- What is at a path. -/
def find (t : FileTree) (p : Path) : Found :=
  match t.place p with
  | .ok place => t.atPlace place
  | .error found => found

/-- The content of a file. -/
def read (t : FileTree) (p : Path) : Except ReadError ByteArray :=
  match t.find p with
  | .file content => pure content
  | .directory => throw (.isDirectory p)
  | .tooLong => throw (.tooLong p)
  | .missing | .blocked | .nul => throw (.missing p)

/-- Makes the directory of components given last one first, after those around it. -/
def makeDirectories (t : FileTree) (root : String) : List String → Except WriteError FileTree
  | [] => pure t
  | part :: outer => do
    let path : Path := ⟨root, (part :: outer).reverse⟩
    match t.find path with
    | .directory => pure t
    | .file _ => throw (.isFile path)
    | .blocked => throw (.blocked path)
    | .tooLong => throw (.tooLong path)
    | .nul => throw .nul
    | .missing =>
      let t ← makeDirectories t root outer
      match t.place path with
      | .ok place =>
        if t.isDirectory place then return t
        else return { t with directories := t.directories ++ [place] }
      | .error .tooLong => throw (.tooLong path)
      | .error _ => return t

/-- Writes a file, and makes the directories around it. -/
def write (t : FileTree) (p : Path) (content : ByteArray) : Except WriteError FileTree := do
  let t ← t.makeDirectories p.root p.parent.parts.reverse
  match t.find p, t.place p with
  | .directory, _ => throw (.isDirectory p)
  | .blocked, _ => throw (.blocked p)
  | .tooLong, _ => throw (.tooLong p)
  | .nul, _ => throw .nul
  | _, .ok place => return { t with files := t.files.put place content }
  | _, .error _ => return t

/-- The files below the working directory. -/
def filesBelow (t : FileTree) : Table Place ByteArray :=
  t.files.filter fun (place, _) => place.head? != some ".." && place.head? != some "/"

end FileTree

end Flowchart
