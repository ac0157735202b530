import Vendoring.Checkout
import Vendoring.Confirmation
import Vendoring.Stamp
import Vendoring.Sync
import Vendoring.VersionControl

/-!
# A run

A run goes through stages: it sets up the transformer, finds the checkout, asks whether the checkout
has changes of its own and, if so, whether to go on; it refreshes the checkout, synchronises the
mappings and stamps the version. What fails up to the question ends the run before anything is
written. What fails later leaves a warning. A dry run asks for nothing but the version and writes
nothing.

`run` gives the outcome together with the trace of the run: what it did, in order, each with the
tree it found, the warnings it has left on the way, and the tree it leaves behind.
-/

namespace Vendoring.Pipeline

open VersionControl (Client Query)

/-- The stages of a run, in order. -/
inductive Stage where
  | setUp
  | locate
  | inspect
  | refresh
  | sync
  | stamp
  | done
deriving DecidableEq

/-- The name of a stage. -/
def Stage.name : Stage → String
  | .setUp => "init"
  | .locate => "locate-upstream"
  | .inspect => "check-local-modifications"
  | .refresh => "refresh-upstream"
  | .sync => "sync-entries"
  | .stamp => "stamp-version"
  | .done => "done"

/-- Whether anything is written, and whether the checkout is refreshed first. -/
structure Options where
  dryRun : Bool := false
  refresh : Bool := true
deriving DecidableEq

/-- Why a run ends before anything is written. -/
inductive Failure where
  | settings (error : SettingsError)
  | transformer (error : UnmappedEntryPoint)
  | checkout (error : Checkout.NotFound)
  | declined (root : Path)
  | uninspected (root : Path) (failure : VersionControl.Failure)

/-- The wording of a failure. -/
def Failure.message : Failure → String
  | .settings error => "configuration error: " ++ error.message
  | .transformer error => "transformer setup error: " ++ error.message
  | .checkout error => error.message
  | .declined root => "upstream at " ++ root.text ++ " has uncommitted changes; sync declined"
  | .uninspected root failure =>
    "cannot inspect upstream at " ++ root.text ++ ": " ++ failure.message

/-- What became of refreshing the checkout. -/
inductive Refresh where
  | refreshed (output : String)
  | skipped
  | failed (failure : VersionControl.Failure)
deriving DecidableEq

/-- What became of stamping the version. -/
inductive Stamping where
  | stamped (outcome : Stamp.Outcome)
  | skipped
  | failed (error : FileError)
deriving DecidableEq

/-- What went wrong without ending the run. -/
inductive Warning where
  | modified (root : Path)
  | notRefreshed (failure : VersionControl.Failure)
  | notSynced (source : Path) (outcome : Sync.Outcome)
  | targetMissing (target : Path)
  | notStamped (error : FileError)
deriving DecidableEq

/-- The wording of a warning. -/
def Warning.message : Warning → String
  | .modified root => root.text ++ " has uncommitted changes; syncing anyway"
  | .notRefreshed failure => "failed to refresh upstream: " ++ failure.message
  | .notSynced source outcome =>
    source.text ++ ": " ++ outcome.status ++ " (" ++ outcome.detail?.getD "no detail" ++ ")"
  | .targetMissing target => target.text ++ " not found, version not stamped"
  | .notStamped error => "failed to stamp version: " ++ error.message

/-- What a completed run did. -/
structure Outcome where
  root : Path
  modified : Bool
  refresh : Refresh
  report : Sync.Report
  version : String
  stamping : Stamping
  warnings : List Warning
deriving DecidableEq

/-- What a run does to or asks of its surroundings, apart from reading and writing files. -/
inductive Action where
  | enter (stage : Stage)
  | query (query : Query) (root : Path)
  | decide (root : Path)
deriving DecidableEq

/-- Something done, with the tree that was found. -/
structure Event where
  action : Action
  tree : Tree

/-- What was done, in order, the warnings that arose on the way, and the tree left behind. -/
structure Trace where
  events : List Event
  warnings : List Warning
  tree : Tree

namespace Trace

/-- Nothing is done yet. -/
def start (tree : Tree) : Trace :=
  ⟨[], [], tree⟩

/-- Something more is done on the tree as it is. -/
def log (trace : Trace) (action : Action) : Trace :=
  { trace with events := trace.events ++ [⟨action, trace.tree⟩] }

/-- Something went wrong that does not end the run. -/
def warn (trace : Trace) (warning : Warning) : Trace :=
  { trace with warnings := trace.warnings ++ [warning] }

/-- The tree is changed. -/
def onTree (trace : Trace) (tree : Tree) : Trace :=
  { trace with tree }

/-- The stages that were entered. -/
def stages (trace : Trace) : List Stage :=
  trace.events.filterMap fun event =>
    match event.action with
    | .enter stage => some stage
    | _ => none

/-- The queries that were made. -/
def queries (trace : Trace) : List Query :=
  trace.events.filterMap fun event =>
    match event.action with
    | .query query _ => some query
    | _ => none

/-- The checkouts for which the policy was asked. -/
def decisions (trace : Trace) : List Path :=
  trace.events.filterMap fun event =>
    match event.action with
    | .decide root => some root
    | _ => none

end Trace

/-- The transformer of the settings, if they hold together. -/
def setUp (settings : Settings) : Except Failure Transformer :=
  match settings.validate with
  | .error error => .error (.settings error)
  | .ok () =>
    match Transformer.ofSettings settings with
    | .error error => .error (.transformer error)
    | .ok transformer => .ok transformer

/-- Ask whether the checkout has changes of its own and, if so, whether to go on, which leaves a
warning. -/
def inspect (client : Client) (policy : Confirmation.Policy) (options : Options) (root : Path)
    (trace : Trace) : Except Failure Bool × Trace :=
  if options.dryRun then (.ok false, trace)
  else
    let asked := trace.log (.query .modifications root)
    match client.modifications root trace.tree with
    | (.error failure, left) => (.error (.uninspected root failure), asked.onTree left)
    | (.ok false, left) => (.ok false, asked.onTree left)
    | (.ok true, left) =>
      let decided := (asked.onTree left).log (.decide root)
      if policy.decide root then (.ok true, decided.warn (.modified root))
      else (.error (.declined root), decided)

/-- Refresh the checkout, if that is wanted. -/
def refresh (client : Client) (options : Options) (root : Path) (trace : Trace) :
    Refresh × Trace :=
  if options.dryRun || !options.refresh then (.skipped, trace)
  else
    let asked := trace.log (.query .refresh root)
    match client.refresh root trace.tree with
    | (.ok output, left) => (.refreshed output, asked.onTree left)
    | (.error failure, left) =>
      (.failed failure, (asked.onTree left).warn (.notRefreshed failure))

/-- What there is to synchronise. -/
def job (settings : Settings) (transformer : Transformer) (options : Options) (root : Path) :
    Sync.Job :=
  { transformer
    sourceDir := settings.sourceDir root
    embeddedRoot := settings.embeddedRoot
    dryRun := options.dryRun }

/-- Synchronise the mappings. Each that is not synced leaves a warning. -/
def sync (settings : Settings) (transformer : Transformer) (options : Options) (root : Path)
    (trace : Trace) : Sync.Report × Trace :=
  let (report, left) := (job settings transformer options root).run settings.mappings trace.tree
  (report, report.failures.foldl
    (fun trace row => trace.warn (.notSynced row.mapping.source row.outcome)) (trace.onTree left))

/-- Find out the version. -/
def version (settings : Settings) (client : Client) (root : Path) (trace : Trace) :
    String × Trace :=
  let v := client.version root settings.unknownVersion trace.tree
  (v.label,
    { trace with
      events := trace.events ++ v.queries.map fun (query, tree) => ⟨.query query root, tree⟩
      tree := v.tree })

/-- Stamp the version. -/
def stamp (settings : Settings) (options : Options) (version : String) (trace : Trace) :
    Stamping × Trace :=
  if options.dryRun then (.skipped, trace)
  else
    let line := Stamp.line settings.stampPrefix version
    match Stamp.apply trace.tree settings.stampTargetPath settings.stampPrefix line with
    | (.ok .targetMissing, left) =>
      (.stamped .targetMissing, (trace.onTree left).warn (.targetMissing settings.stampTargetPath))
    | (.ok outcome, left) => (.stamped outcome, trace.onTree left)
    | (.error error, left) => (.failed error, (trace.onTree left).warn (.notStamped error))

/-- The stages behind the question: nothing ends the run any more. -/
def complete (settings : Settings) (client : Client) (options : Options)
    (transformer : Transformer) (root : Path) (modified : Bool) (trace : Trace) :
    Outcome × Trace :=
  let (refreshed, trace) := refresh client options root (trace.log (.enter .refresh))
  let (report, trace) := sync settings transformer options root (trace.log (.enter .sync))
  let (version, trace) := version settings client root (trace.log (.enter .stamp))
  let (stamping, trace) := stamp settings options version trace
  ({ root
     modified
     refresh := refreshed
     report
     version
     stamping
     warnings := trace.warnings },
    trace.log (.enter .done))

/-- Run through the stages on a tree. -/
def run (settings : Settings) (client : Client) (policy : Confirmation.Policy)
    (options : Options) (tree : Tree) : Except Failure Outcome × Trace :=
  let trace := (Trace.start tree).log (.enter .setUp)
  match setUp settings with
  | .error failure => (.error failure, trace)
  | .ok transformer =>
    let trace := trace.log (.enter .locate)
    match Checkout.locate tree settings.candidates (some settings.cloneUrl) with
    | .error error => (.error (.checkout error), trace)
    | .ok root =>
      match inspect client policy options root (trace.log (.enter .inspect)) with
      | (.error failure, trace) => (.error failure, trace)
      | (.ok modified, trace) =>
        let (outcome, trace) := complete settings client options transformer root modified trace
        (.ok outcome, trace)

/-- The exit status of a run: zero if every mapping is synced, two if some are not, and one if the
run ended early. -/
def exitStatus : Except Failure Outcome → Nat
  | .ok outcome => if outcome.report.isComplete then 0 else 2
  | .error _ => 1

end Vendoring.Pipeline
