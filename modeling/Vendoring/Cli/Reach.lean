import Vendoring.Cli.Command

/-!
# What a request reaches

A request reads its manifest, looks for the checkout, reads the sources below it, and reads or
writes destinations, the stamp target and their staging files. No other path matters to it, so a
tree that knows these answers like the whole file system.
-/

namespace Vendoring.Cli

/-- The manifest of the request, which decides about all other paths. -/
def Request.manifestPaths (request : Request) : List Path :=
  request.manifest.toList

/-- A path that may be written, with its staging file. -/
def withStaging (p : Path) : List Path :=
  [p, p.staging]

/-- The paths that the settings lead to. -/
def settingsPaths (s : Settings) : List Path :=
  s.candidates ++
    s.candidates.flatMap (fun root =>
      s.mappings.toList.map fun m => (s.sourceDir root).join m.source) ++
    s.embeddedRoot ::
    s.mappings.toList.flatMap (fun m => withStaging (m.target s.embeddedRoot)) ++
    withStaging s.stampTargetPath

/-- The paths that a request leads to once its manifest is known. -/
def Request.paths (request : Request) (around : Surroundings) (tree : Tree) : List Path :=
  match request.settings around tree with
  | .ok settings => settingsPaths settings
  | .error _ => []

/-- Two digits of a number below a hundred. -/
def twoDigits (n : Nat) : String :=
  (if n < 10 then "0" else "") ++ toString n

/-- How the time of a run is written: the time of day at its start, given in seconds, and how long
it took. -/
def timingText (seconds milliseconds : Nat) : String :=
  twoDigits (seconds / 3600 % 24) ++ ":" ++ twoDigits (seconds / 60 % 60) ++ ":"
    ++ twoDigits (seconds % 60) ++ " UTC, " ++ toString milliseconds ++ " ms"

end Vendoring.Cli
