import ClassAtlas.CommandLine.Run
import ClassAtlas.Storage.Zip

/-!
# The command line tool

Loads the files that a command line mentions into a file tree, runs the command
against the tree and prints what it leaves behind.
-/

namespace ClassAtlas.CommandLine

/-- The paths that a command opens. -/
def Command.paths : Command → List String
  | dump path => [path]
  | showTree library => [library]
  | members libraries _ _ _ => libraries
  | call libraries _ _ _ => libraries

/-- The content of a file; only a path that suggests an archive is opened as one. -/
def contentOf (path : String) (data : ByteArray) : FileContent :=
  match (Location.ofPath path).kind with
  | .archive =>
    match Zip.entries? data with
    | some entries => .archive entries
    | none => .plain data.data.toList
  | _ => .plain data.data.toList

/-- Adds what a path leads to on disk to a file tree. -/
partial def load (tree : FileTree) (path : String) : IO FileTree := do
  let found := (← IO.currentDir) / path
  if ← found.isDir then
    let mut tree := tree.writeAt (tree.placeOf path) .directory
    for entry in ← found.readDir do
      tree ← load tree (Path.join path entry.fileName)
    return tree
  else if ← found.pathExists then
    let data ← IO.FS.readBinFile found
    return tree.write path (.file (contentOf path data))
  else return tree

/-- Runs a command line on the files of the current directory. -/
def runOnDisk (arguments : List String) : IO UInt32 := do
  let here := (← IO.currentDir).toString
  let start := FileTree.emptyAt ((Path.pieces here).filter Path.isStep)
  let paths := ((parse arguments).map Command.paths).getD []
  let mut tree := start
  for path in paths do
    tree ← load tree path
  let outcome := run tree arguments
  for line in outcome.output do
    IO.println line
  if outcome.exitCode = 1 then IO.eprintln "error: the command failed"
  if outcome.exitCode = 2 then IO.eprintln "error: expected dump, tree, members or call"
  return UInt32.ofNat outcome.exitCode

end ClassAtlas.CommandLine

/-- Entry point of the tool. -/
def main (arguments : List String) : IO UInt32 :=
  ClassAtlas.CommandLine.runOnDisk arguments
