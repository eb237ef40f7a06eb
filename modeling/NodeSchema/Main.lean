import NodeSchema.Command.Generator
import NodeSchema.Fixture

/-!
# The programs

The generator and the fixture runner on the real file system. The part of it that a run
can look at is read into a file tree, the run is carried out on that tree, and what it
has changed is written back.
-/

namespace NodeSchema.Main

/-- The path of a place. -/
def pathOf (place : List String) : String :=
  "/" ++ "/".intercalate place

/-- Notes what stands at a place of the file system. -/
def look (tree : FileTree) (place : List String) : IO FileTree := do
  let path := (← IO.currentDir) / pathOf place
  if place.isEmpty then return tree
  else if ← path.isDir then return tree.put place .directory
  else if ← path.pathExists then return tree.put place (.file (← IO.FS.readBinFile path))
  else return tree

/-- Notes what stands at a place of the file system, and everything below it. -/
partial def lookBelow (tree : FileTree) (place : List String) : IO FileTree := do
  let tree ← look tree place
  let path := (← IO.currentDir) / pathOf place
  if ← path.isDir then
    (← path.readDir).foldlM (fun tree entry => lookBelow tree (place ++ [entry.fileName])) tree
  else
    return tree

/-- The file tree with the places that lead to some paths. -/
def readTree (paths : List String) : IO FileTree := do
  let here := (Path.pieces (← IO.currentDir).toString).filter fun name => !name.isEmpty
  let tree := FileTree.empty here
  let places := paths.flatMap fun path =>
    FileTree.trail (tree.origin path) (Path.pieces path)
  places.foldlM look tree

/-- Writes back what a run has changed. -/
def writeBack (before after : FileTree) : IO Unit :=
  (before.changes after).reverse.forM fun change =>
    match change.2 with
    | .directory => IO.FS.createDirAll (pathOf change.1)
    | .file content => IO.FS.writeBinFile (pathOf change.1) content

/-- Everything that is left on a stream. -/
partial def readStream (stream : IO.FS.Stream) (read : ByteArray) : IO ByteArray := do
  let chunk ← stream.read 65536
  if chunk.isEmpty then return read else readStream stream (read ++ chunk)

/-- Carries out a run on a file tree and shows its outcome. -/
def perform (tree : FileTree) (stdin : ByteArray) (run : Surroundings → Report) : IO UInt32 := do
  let coloured := isColoured (← IO.getEnv "CLICOLOR_FORCE") (← IO.getEnv "NO_COLOR")
    (← IO.getEnv "CLICOLOR") (← (← IO.getStdout).isTty)
  let report := run { stdin, coloured, tree }
  writeBack tree report.tree
  IO.print report.stdout
  IO.eprint report.stderr
  return report.exit.toUInt32

/-- The fixture runner. -/
def runFixtures (arguments : List String) : IO UInt32 := do
  let start := match Fixture.readOptions arguments with
    | .error _ => none
    | .ok options => some (Pattern.start options.directory)
  let tree ← readTree start.toList
  let tree ← start.toList.foldlM
    (fun tree path =>
      match tree.entryAt path with
      | .ok (place, _) => lookBelow tree place
      | .error _ => pure tree)
    tree
  perform tree ByteArray.empty (Fixture.run arguments)

end NodeSchema.Main

open NodeSchema in
/-- The generator. -/
def main (arguments : List String) : IO UInt32 := do
  let (paths, readsInput) := match Invocation.read arguments with
    | .error _ => ([], false)
    | .ok invocation => (invocation.paths, invocation.readsStandardInput)
  let stdin ← if readsInput then Main.readStream (← IO.getStdin) ByteArray.empty
    else pure ByteArray.empty
  Main.perform (← Main.readTree paths) stdin (Generator.run arguments)
