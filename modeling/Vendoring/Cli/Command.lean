import Vendoring.Cli.Grid
import Vendoring.Cli.Help
import Vendoring.Compare
import Vendoring.Mapping.Exchange
import Vendoring.Pipeline

/-!
# Commands

A command runs on a tree and answers with an exit status and what it writes to either stream. What
is found, done or shown goes to the output; warnings, the question about a changed checkout and the
reason for ending early go to the error stream.
-/

namespace Vendoring.Cli

/-- What surrounds a command: the directory of the program, the input, the version-control program,
and how the time of a run is written. -/
structure Surroundings where
  programDir : Path
  input : List UInt8
  versionControl : VersionControl.Program
  timing : String

/-- What a command answers, with the trace of what it did. -/
structure Answer where
  status : Nat
  output : String
  errors : String
  trace : Pipeline.Trace

/-- An error with the causes behind it; each of them is told in full. -/
structure Failure where
  causes : List String

/-- The wording of a failure. -/
def Failure.message (f : Failure) : String :=
  "error: " ++ ": ".intercalate f.causes ++ "\n"

/-- What is wrong with settings, and the causes behind it. -/
def causesOfSettings (e : SettingsError) : List String :=
  e.message :: match e with
    | .unreadable _ cause => [cause.message]
    | .malformed _ error => [error.message]
    | _ => []

/-- Why there is no answer from version control, and the causes behind it. -/
def causesOfClient (f : VersionControl.Failure) : List String :=
  f.message :: match f with
    | .notStarted _ cause => [cause.message]
    | _ => []

/-- Why a run ended early, and the causes behind it. -/
def causesOfRun (f : Pipeline.Failure) : List String :=
  f.message :: match f with
    | .settings error => causesOfSettings error
    | .transformer error => [error.message]
    | .uninspected _ failure => causesOfClient failure
    | _ => []

/-- The settings of a request. -/
def Request.settings (request : Request) (around : Surroundings) (tree : Tree) :
    Except Failure Settings := do
  let toolDir := request.toolDir.getD around.programDir
  let settings ← match Settings.ofToolDir toolDir with
    | .ok settings => pure settings
    | .error error =>
      throw ⟨("invalid tool directory " ++ toolDir.text) :: causesOfSettings error⟩
  match request.manifest with
  | none => pure settings
  | some path =>
    match Manifest.load tree path with
    | .error error => throw ⟨causesOfSettings error⟩
    | .ok manifest =>
      match settings.apply manifest with
      | (settings, .ok ()) => pure settings
      | (_, .error error) =>
        throw ⟨("manifest " ++ path.text ++ " rejected") :: causesOfSettings error⟩

/-- A line that warns. -/
def warningLine (message : String) : String :=
  "warning: " ++ message ++ "\n"

/-- An answer that leaves the tree as it is. -/
def answer (tree : Tree) (status : Nat) (output errors : String) : Answer :=
  ⟨status, output, errors, .start tree⟩

/-! ## Listing -/

/-- What a mapping is to the settings. -/
def roleOf (settings : Settings) (m : Mapping) : String :=
  if m.source.Same settings.entryPoint then "entry point"
  else if m.destination.Same settings.stampTarget then "stamp target"
  else ""

/-- The mappings in a grid, numbered from one. -/
def mappingGrid (settings : Settings) : Grid :=
  { header := ["#", "upstream", "destination", "role"]
    rows := settings.mappings.toList.zipIdx.map fun (m, i) =>
      [toString (i + 1), m.source.text, m.destination.text, roleOf settings m] }

/-- What listing the mappings shows. -/
def listing (settings : Settings) (json : Bool) : String :=
  if json then settings.mappings.toJson.pretty ++ "\n"
  else
    (mappingGrid settings).render ++ toString settings.mappings.size ++ " entries -> "
      ++ settings.embeddedRoot.text ++ "\n"

/-! ## Comparing -/

/-- What comparing warns of. -/
def differenceWarnings (d : Sync.Differences) : String :=
  String.join (d.missing.map fun m => warningLine (m.source.text ++ ": source missing")) ++
    String.join (d.unreadable.map fun (m, reason) =>
      warningLine (m.source.text ++ ": cannot diff (" ++ reason ++ ")"))

/-- A text that ends in a line feed. -/
def withLineEnd (text : String) : String :=
  if text.toList.getLast? = some '\n' then text else text ++ "\n"

/-- What comparing shows. -/
def differenceText (settings : Settings) (d : Sync.Differences) : String :=
  if d.isClean then "No differences in " ++ settings.embeddedRoot.text ++ ".\n"
  else String.join (d.changed.map fun (_, text) => withLineEnd text)

/-- Compare what synchronising would write with what is there. -/
def compare (settings : Settings) (tree : Tree) : Except Failure Answer := do
  let transformer ← match Transformer.ofSettings settings with
    | .ok transformer => pure transformer
    | .error error => throw ⟨[error.message]⟩
  let root ← match Checkout.locate tree settings.candidates (some settings.cloneUrl) with
    | .ok root => pure root
    | .error error => throw ⟨[error.message]⟩
  let job := Pipeline.job settings transformer { dryRun := true } root
  let d := job.compare settings.mappings tree
  pure (answer tree 0 (differenceText settings d) (differenceWarnings d))

/-! ## Synchronising -/

/-- What a line about a file starts with. -/
def runPrefix (dryRun : Bool) : String :=
  if dryRun then "[dry-run] " else ""

/-- What is shown about refreshing. -/
def refreshText : Pipeline.Refresh → String
  | .refreshed output =>
    "✓ Pulled latest upstream changes\n" ++ String.join ((Text.lines output.toList).map fun line =>
      "  " ++ String.ofList line ++ "\n")
  | _ => ""

/-- What is shown about a mapping. -/
def rowText (dryRun : Bool) (row : Sync.Row) : String :=
  match row.outcome with
  | .synced update =>
    runPrefix dryRun ++ "✓ Synced: " ++ row.mapping.display
      ++ (if update = .unchanged then " (unchanged)" else "") ++ "\n"
  | _ => ""

/-- What is shown about the stamp. -/
def stampText (version : String) : Pipeline.Stamping → String
  | .stamped .inserted => "✓ Stamped upstream version " ++ version ++ "\n"
  | .stamped .alreadyPresent => "✓ Upstream version " ++ version ++ " already stamped\n"
  | _ => ""

/-- What a completed run shows. -/
def outcomeText (dryRun : Bool) (timing : String) (o : Pipeline.Outcome) : String :=
  "Found upstream at " ++ o.root.text ++ "\n" ++ refreshText o.refresh ++
    String.join (o.report.rows.map (rowText dryRun)) ++ stampText o.version o.stamping ++
    "\n" ++ runPrefix dryRun ++ "Sync complete: " ++ toString o.report.succeeded ++ "/"
    ++ toString o.report.total ++ " files synced successfully (started " ++ timing ++ ")\n"

/-- Run through the stages. -/
def synchronise (settings : Settings) (around : Surroundings) (yes noRefresh dryRun : Bool)
    (tree : Tree) : Answer :=
  let policy : Confirmation.Policy :=
    if yes then .proceed else .ask fun _ => (Confirmation.prompt around.input).1
  let (result, trace) := Pipeline.run settings around.versionControl.client policy
    { dryRun, refresh := !noRefresh } tree
  let asked := if policy.asks then String.join (trace.decisions.map Confirmation.promptText) else ""
  match result with
  | .ok o =>
    { status := Pipeline.exitStatus result
      output := outcomeText dryRun around.timing o
      errors := asked ++ String.join (o.warnings.map fun w => warningLine w.message)
      trace }
  | .error failure =>
    { status := Pipeline.exitStatus result
      output := ""
      errors := asked ++ Failure.message ⟨causesOfRun failure⟩
      trace }

/-! ## The program -/

/-- Do what a request asks for. -/
def Request.run (request : Request) (around : Surroundings) (tree : Tree) :
    Except Failure Answer := do
  let settings ← request.settings around tree
  match request.action with
  | .sync yes noRefresh dryRun => pure (synchronise settings around yes noRefresh dryRun tree)
  | .diff => compare settings tree
  | .list json => pure (answer tree 0 (listing settings json) "")

/-- What is answered when the arguments ask for something else than a command. -/
def Stop.answer (stop : Stop) (tree : Tree) : Answer :=
  match stop with
  | .help topic => Cli.answer tree 0 topic.helpText ""
  | .version => Cli.answer tree 0 versionText ""
  | .usage topic error =>
    Cli.answer tree 1 ""
      ("error: " ++ error.message topic ++ "\n\nFor more information, try '--help'.\n")

/-- Run the program with arguments on a tree. -/
def run (around : Surroundings) (arguments : List String) (tree : Tree) : Answer :=
  match Request.ofArguments arguments with
  | .error stop => stop.answer tree
  | .ok request =>
    match request.run around tree with
    | .ok answer => answer
    | .error failure => answer tree 1 "" failure.message

end Vendoring.Cli
