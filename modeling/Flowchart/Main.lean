import Flowchart.Command.Run
import Flowchart.Yaml.Reader

/-!
# The program

The command on the files of this computer. What a request reads is fetched first; then the request
is answered, and the draft is put where it belongs.
-/

namespace Flowchart.Command

/-- Fetches what is at a path. Where there is nothing, the tree stays as it is. -/
def fetch (t : FileTree) (p : Path) : IO FileTree := do
  let place := (← IO.currentDir) / p.text
  let tree ←
    if ← place.isDir then pure (t.makeDirectories p.root p.parts.reverse)
    else if ← place.pathExists then pure (t.write p (← IO.FS.readBinFile place))
    else pure (pure t)
  return tree.toOption.getD t

/-- The rest of a stream. -/
partial def readAll (stream : IO.FS.Stream) (before : ByteArray) : IO ByteArray := do
  let chunk ← stream.read 65536
  if chunk.isEmpty then return before
  readAll stream (before ++ chunk)

/-- Fetches what a request reads, and takes the library for YAML that is at hand. -/
def environment (r : Request) : IO Environment := do
  let tree ← r.sources.foldlM fetch .empty
  let stdin ← if r.readsStdin then readAll (← IO.getStdin) .empty else pure .empty
  return ⟨tree, stdin, Yaml.library⟩

/-- Writes the outputs of a draft, and its file. -/
def publish (d : Draft) : IO Unit := do
  IO.eprint d.stderr
  IO.print d.stdout
  if let some (path, text) := d.page then
    IO.FS.createDirAll path.parent.text
    IO.FS.writeFile path.text text

end Flowchart.Command

/-- Runs the command. An error that no user is told about ends the program. -/
def main (arguments : List String) : IO UInt32 := do
  let request := Flowchart.Command.Request.ofArguments arguments
  let draft := Flowchart.Command.answer (← Flowchart.Command.environment request) request
  Flowchart.Command.publish draft
  if let some e := draft.failure then
    unless e.isExpected do throw (IO.userError e.message)
  return draft.status.toUInt32
