import Std.Time.DateTime.Timestamp
import Vendoring.Cli.Reach
import Vendoring.Tree.Change

/-!
# The program

The program looks at the paths its request leads to, runs the request on a tree that knows them, and
does to the file system what the run did to the tree. It starts no other program, so version control
counts as not installed here: a run that asks it ends with that error, and listing, comparing and
dry runs work.
-/

namespace Vendoring

/-- The path of a place. -/
def placePath (place : List Name) : String :=
  String.ofList (place.flatMap fun name => '/' :: name)

/-- What stands at a path of the file system. -/
def look (path : String) : IO (Option Node) := do
  try
    pure (some (.file (← IO.FS.readBinFile path)))
  catch error =>
    match error with
    | .inappropriateType _ 21 _ => pure (some (.directory []))
    | _ => pure none

/-- The tree with what the file system has on the way along some pieces of a path. -/
def learn (tree : Tree) (place : List Name) : List Name → IO Tree
  | [] => pure tree
  | piece :: pieces =>
    if piece = ['.'] then learn tree place pieces
    else if piece = ['.', '.'] then learn tree place.dropLast pieces
    else do
      let next := place ++ [piece]
      if (tree.at? next).isSome then learn tree next pieces
      else match ← look (placePath next) with
        | some node => learn (tree.set next node) next pieces
        | none => pure tree

/-- The tree with what the file system has along some paths. -/
def learnAll (tree : Tree) : List Path → IO Tree
  | [] => pure tree
  | path :: paths => do
    let known ← if path.text.toList.contains '\x00' then pure tree
      else learn tree (tree.start path) path.pieces
    learnAll known paths

/-- Do to the file system what was done to a tree. A file is written beside its place and moved
there. -/
def perform : Change → IO Unit
  | .write place content => do
    IO.FS.createDirAll (placePath place.dropLast)
    let staging := placePath place ++ stagingEnding
    IO.FS.writeBinFile staging content
    IO.FS.rename staging (placePath place)
  | .makeDirectory place => IO.FS.createDirAll (placePath place)
  | .remove place => IO.FS.removeFile (placePath place)

/-- Run the program with arguments. -/
def runProgram (arguments : List String) : IO UInt32 := do
  let directory ← IO.currentDir
  let program ← IO.appPath
  let started ← Std.Time.Timestamp.now
  let begun ← IO.monoMsNow
  let here : Path := ⟨directory.toString⟩
  let empty : Tree := ⟨.directory [], here.pieces⟩
  let around (timing : String) : Cli.Surroundings :=
    { programDir := (Path.parent? ⟨program.toString⟩).getD ⟨"/"⟩
      input := []
      versionControl := ⟨"git", none⟩
      timing }
  let tree ← match Cli.Request.ofArguments arguments with
    | .error _ => pure empty
    | .ok request => do
      let tree ← learnAll empty (here :: request.manifestPaths)
      learnAll tree (request.paths (around "") tree)
  let ended ← IO.monoMsNow
  let seconds := started.toSecondsSinceUnixEpoch.val.toNat
  let answer := Cli.run (around (Cli.timingText seconds (ended - begun))) arguments tree
  for change in tree.changes answer.trace.tree do
    perform change
  (← IO.getStdout).putStr answer.output
  (← IO.getStderr).putStr answer.errors
  pure answer.status.toUInt32

end Vendoring

/-- Run the program on the file system. -/
def main (arguments : List String) : IO UInt32 :=
  Vendoring.runProgram arguments
