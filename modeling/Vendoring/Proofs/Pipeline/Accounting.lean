import Vendoring.Proofs.Pipeline.Idempotence
import Vendoring.Proofs.Stamp.Law

/-!
# What a run accounts for

Each stage of a run adds its own warnings behind those of the stages before. So a completed run,
which has one row for each mapping, lists what went wrong without ending it in the order in which it
arose (`complete_warnings`, `Accounted`). The exit status is told by the result alone
(`exitStatus_iff`).

What is soft stays soft: what a client answers when the checkout is to be refreshed or asked for its
version has no part in the rows. So two runs by clients that agree about changes of the checkout end
early in the same way, or complete with the same rows and leave trees behind that differ at the
target of the stamp at most (`Parallel`).
-/

namespace Vendoring

namespace Sync

/-- An update is told of a mapping that is synced, and a detail of any other one. -/
theorem Outcome.told (outcome : Outcome) :
    outcome.update?.isSome = outcome.isSynced ∧ outcome.detail?.isSome = !outcome.isSynced := by
  cases outcome <;> exact ⟨rfl, rfl⟩

/-- A report is complete exactly if all of its rows are synced. -/
theorem Report.isComplete_iff (report : Report) :
    report.isComplete = true ↔ ∀ row ∈ report.rows, row.outcome.isSynced = true := by
  rw [isComplete, beq_iff_eq, succeeded, total, List.countP_eq_length]

end Sync

namespace Pipeline

open VersionControl (Client)

/-! ## Warnings -/

/-- Refreshing leaves a warning just if it failed. -/
inductive Refresh.Warns : Refresh → List Warning → Prop where
  | refreshed (output : String) : Warns (.refreshed output) []
  | skipped : Warns .skipped []
  | failed (failure : VersionControl.Failure) : Warns (.failed failure) [.notRefreshed failure]

/-- Stamping leaves a warning just if there was no target or it failed. -/
inductive Stamping.Warns (target : Path) : Stamping → List Warning → Prop where
  | inserted : Warns target (.stamped .inserted) []
  | alreadyPresent : Warns target (.stamped .alreadyPresent) []
  | targetMissing : Warns target (.stamped .targetMissing) [.targetMissing target]
  | skipped : Warns target .skipped []
  | failed (error : FileError) : Warns target (.failed error) [.notStamped error]

section

variable {settings : Settings} {client : Client} {options : Options} {root : Path}

/-- A run that goes on with changes of the checkout warns of them. -/
theorem inspect_warnings {policy : Confirmation.Policy} {trace : Trace} {modified : Bool}
    (h : (inspect client policy options root trace).1 = .ok modified) :
    (inspect client policy options root trace).2.warnings =
      trace.warnings ++ if modified then [.modified root] else [] := by
  have hinspects := inspects client policy options root trace
  rw [h] at hinspects
  generalize (inspect client policy options root trace).2 = left at hinspects ⊢
  cases hinspects with
  | dry | unmodified => simp [Trace.log, Trace.onTree]
  | agreed => simp [Trace.log, Trace.warn, Trace.onTree]

/-- Refreshing adds its warning. -/
theorem refresh_warnings (client : Client) (options : Options) (root : Path) (trace : Trace) :
    ∃ new, (refresh client options root trace).1.Warns new ∧
      (refresh client options root trace).2.warnings = trace.warnings ++ new := by
  unfold refresh
  split
  · exact ⟨[], .skipped, by simp⟩
  · cases client.refresh root trace.tree with
    | mk result left =>
        cases result with
        | ok output => exact ⟨[], .refreshed output, by simp [Trace.log, Trace.onTree]⟩
        | error failure => exact ⟨_, .failed failure, rfl⟩

/-- Synchronising adds a warning for each row that is not synced. -/
theorem sync_warnings (settings : Settings) (transformer : Transformer) (options : Options)
    (root : Path) (trace : Trace) :
    (sync settings transformer options root trace).2.warnings = trace.warnings ++
      ((sync settings transformer options root trace).1.rows.filter (!·.outcome.isSynced)).map
        (fun row => .notSynced row.mapping.source row.outcome) := by
  unfold sync
  simp only [Trace.foldl_warn]
  rfl

/-- Stamping adds its warning. -/
theorem stamp_warnings (settings : Settings) (options : Options) (version : String)
    (trace : Trace) :
    ∃ new, (stamp settings options version trace).1.Warns settings.stampTargetPath new ∧
      (stamp settings options version trace).2.warnings = trace.warnings ++ new := by
  unfold stamp
  split
  · exact ⟨[], .skipped, by simp⟩
  · simp only
    cases Stamp.apply trace.tree settings.stampTargetPath settings.stampPrefix
        (Stamp.line settings.stampPrefix version) with
    | mk result left =>
        cases result with
        | error error => exact ⟨_, .failed error, rfl⟩
        | ok outcome =>
            cases outcome with
            | inserted => exact ⟨[], .inserted, by simp [Trace.onTree]⟩
            | alreadyPresent => exact ⟨[], .alreadyPresent, by simp [Trace.onTree]⟩
            | targetMissing => exact ⟨_, .targetMissing, rfl⟩

/-- The warnings of a run are those up to the question and those that the stages behind it add, in
the order of the stages. -/
theorem complete_warnings (settings : Settings) (client : Client) (options : Options)
    (transformer : Transformer) (root : Path) (modified : Bool) (trace : Trace) {outcome : Outcome}
    (h : (complete settings client options transformer root modified trace).1 = outcome) :
    ∃ unrefreshed unstamped, outcome.refresh.Warns unrefreshed ∧
      outcome.stamping.Warns settings.stampTargetPath unstamped ∧
      outcome.warnings = trace.warnings ++ unrefreshed ++
        (outcome.report.rows.filter (!·.outcome.isSynced)).map
          (fun row => .notSynced row.mapping.source row.outcome) ++ unstamped := by
  subst h
  obtain ⟨unrefreshed, hrefresh, hrefreshed⟩ :=
    refresh_warnings client options root (trace.log (.enter .refresh))
  have hsynced := sync_warnings settings transformer options root
    ((refresh client options root (trace.log (.enter .refresh))).2.log (.enter .sync))
  obtain ⟨unstamped, hstamp, hstamped⟩ := stamp_warnings settings options
    (complete settings client options transformer root modified trace).1.version
    (version settings client root ((sync settings transformer options root
      ((refresh client options root (trace.log (.enter .refresh))).2.log (.enter .sync))).2.log
        (.enter .stamp))).2
  refine ⟨unrefreshed, unstamped, hrefresh, hstamp, hstamped.trans ?_⟩
  refine congrArg (· ++ unstamped) (hsynced.trans ?_)
  exact congrArg (· ++ _) hrefreshed

end

/-! ## What a completed run tells -/

/-- What a completed run on a tree tells about itself, by the answers of a client that keeps the
tree. -/
structure Accounted (settings : Settings) (client : Client) (options : Options) (tree : Tree)
    (outcome : Outcome) : Prop where
  mappings : outcome.report.rows.map Sync.Row.mapping = settings.mappings.toList
  told : ∀ row ∈ outcome.report.rows, row.outcome.update?.isSome = row.outcome.isSynced ∧
    row.outcome.detail?.isSome = !row.outcome.isSynced
  modified : outcome.modified = true ↔
    options.dryRun = false ∧ (client.modifications outcome.root tree).1 = .ok true
  refresh : ∀ failure, outcome.refresh = .failed failure ↔ options.dryRun = false ∧
    options.refresh = true ∧ (client.refresh outcome.root tree).1 = .error failure
  synced : ∃ transformer, setUp settings = .ok transformer ∧
    outcome.report =
      ((job settings transformer options outcome.root).run settings.mappings tree).1 ∧
    outcome.stamping = (stamp settings options outcome.version (Trace.start
      ((job settings transformer options outcome.root).run settings.mappings tree).2)).1 ∧
    (outcome.stamping = .stamped .targetMissing ↔ options.dryRun = false ∧
      ((job settings transformer options outcome.root).run settings.mappings tree).2.read
        settings.stampTargetPath = .error .notFound)
  warnings : ∃ unrefreshed unstamped, outcome.refresh.Warns unrefreshed ∧
    outcome.stamping.Warns settings.stampTargetPath unstamped ∧
    outcome.warnings = (if outcome.modified then [.modified outcome.root] else []) ++ unrefreshed ++
      (outcome.report.rows.filter (!·.outcome.isSynced)).map
        (fun row => .notSynced row.mapping.source row.outcome) ++ unstamped

/-- Two runs end early in the same way, or complete with the same rows and leave trees behind that
differ at a file and its staging file at most. -/
inductive Parallel (target : Path) :
    Except Failure Outcome × Trace → Except Failure Outcome × Trace → Prop where
  | aborted (failure : Failure) (trace : Trace) :
      Parallel target (.error failure, trace) (.error failure, trace)
  | completed {outcome outcome' : Outcome} {trace trace' : Trace}
      (hroot : outcome'.root = outcome.root) (hmodified : outcome'.modified = outcome.modified)
      (hreport : outcome'.report = outcome.report)
      (hedited : Stamp.Edited trace.tree trace'.tree target) :
      Parallel target (.ok outcome, trace) (.ok outcome', trace')

/-- The exit status tells whether all mappings were synced, some were not, or the run ended
early. -/
theorem exitStatus_iff (result : Except Failure Outcome) :
    (exitStatus result = 0 ↔ ∃ outcome, result = .ok outcome ∧
      ∀ row ∈ outcome.report.rows, row.outcome.isSynced = true) ∧
    (exitStatus result = 2 ↔ ∃ outcome, result = .ok outcome ∧
      ∃ row ∈ outcome.report.rows, row.outcome.isSynced = false) ∧
    (exitStatus result = 1 ↔ ∃ failure, result = .error failure) := by
  cases result with
  | error failure => simp [exitStatus]
  | ok outcome =>
      have hcomplete := outcome.report.isComplete_iff
      by_cases hsynced : ∀ row ∈ outcome.report.rows, row.outcome.isSynced = true
      · have hzero : exitStatus (.ok outcome) = 0 := if_pos (hcomplete.2 hsynced)
        rw [hzero]
        simpa using hsynced
      · have htwo : exitStatus (.ok outcome) = 2 := if_neg fun h => hsynced (hcomplete.1 h)
        rw [htwo]
        simpa using hsynced

/-! ## Behind the question -/

section

variable {settings : Settings} {client : Client} {options : Options} {transformer : Transformer}
  {root : Path}

/-- What comes of stamping is told by the version and by the tree. -/
theorem stamp_result (settings : Settings) (options : Options) (version : String) (trace : Trace) :
    (stamp settings options version trace).1 =
      if options.dryRun then .skipped
      else match (Stamp.apply trace.tree settings.stampTargetPath settings.stampPrefix
          (Stamp.line settings.stampPrefix version)).1 with
        | .ok outcome => .stamped outcome
        | .error error => .failed error := by
  unfold stamp
  by_cases hdry : options.dryRun = true
  · rw [if_pos hdry, if_pos hdry]
  · rw [if_neg hdry, if_neg hdry]
    simp only
    split <;> rename_i heq <;> rw [heq]

/-- How the stamp ends is told by the tree. -/
theorem stamp_congr (settings : Settings) (options : Options) (version : String)
    {trace trace' : Trace} (h : trace'.tree = trace.tree) :
    (stamp settings options version trace').1 = (stamp settings options version trace).1 := by
  rw [stamp_result, stamp_result, h]

/-- The target is found missing just if a stamp is wanted and nothing is there. -/
theorem stamp_eq_targetMissing_iff {settings : Settings} {options : Options} {version : String}
    {trace : Trace} :
    (stamp settings options version trace).1 = .stamped .targetMissing ↔
      options.dryRun = false ∧ trace.tree.read settings.stampTargetPath = .error .notFound := by
  rw [stamp_result, ← Stamp.apply_eq_targetMissing_iff]
  cases hdry : options.dryRun with
  | true => simp
  | false =>
      cases (Stamp.apply trace.tree settings.stampTargetPath settings.stampPrefix
        (Stamp.line settings.stampPrefix version)).1 <;> simp

/-- Refreshing fails if it is wanted and the client says so. -/
theorem refresh_eq_failed_iff (client : Client) (options : Options) (root : Path) (trace : Trace)
    (failure : VersionControl.Failure) :
    (refresh client options root trace).1 = .failed failure ↔ options.dryRun = false ∧
      options.refresh = true ∧ (client.refresh root trace.tree).1 = .error failure := by
  unfold refresh
  cases options.dryRun <;> cases options.refresh <;> simp
  cases client.refresh root trace.tree with
  | mk answer left => cases answer <;> simp

/-- A run goes on with changes of the checkout just if the client tells of them. -/
theorem inspect_eq_modified {policy : Confirmation.Policy} {trace : Trace} {modified : Bool}
    (h : (inspect client policy options root trace).1 = .ok modified) :
    modified = true ↔
      options.dryRun = false ∧ (client.modifications root trace.tree).1 = .ok true := by
  have hinspects := inspects client policy options root trace
  rw [h] at hinspects
  generalize (inspect client policy options root trace).2 = left at hinspects
  cases hinspects with
  | dry hdry => simp [hdry]
  | unmodified hdry hanswer => simp [hanswer]
  | agreed hdry hanswer => simp [hdry, hanswer]

/-- The report of a run is that of synchronising the tree as it is found. -/
theorem complete_report (hkeeps : client.KeepsTree) (settings : Settings) (options : Options)
    (transformer : Transformer) (root : Path) (modified : Bool) (trace : Trace) :
    (complete settings client options transformer root modified trace).1.report =
      ((job settings transformer options root).run settings.mappings trace.tree).1 := by
  show ((job settings transformer options root).run settings.mappings
    (refresh client options root (trace.log (.enter .refresh))).2.tree).1 = _
  rw [(refresh_spec ..).2, refreshedTree, Client.replay_of_keepsTree hkeeps]
  rfl

/-- By a client that keeps the tree, the stamp is put on the synchronised tree. -/
theorem complete_stamping (hkeeps : client.KeepsTree) (settings : Settings) (options : Options)
    (transformer : Transformer) (root : Path) (modified : Bool) (trace : Trace) :
    (complete settings client options transformer root modified trace).1.stamping =
      (stamp settings options
        (complete settings client options transformer root modified trace).1.version (Trace.start
          ((job settings transformer options root).run settings.mappings trace.tree).2)).1 := by
  have hfound : (version settings client root ((sync settings transformer options root
      ((refresh client options root (trace.log (.enter .refresh))).2.log (.enter .sync))).2.log
        (.enter .stamp))).2.tree =
          ((job settings transformer options root).run settings.mappings trace.tree).2 := by
    simp only [version, Trace.log, sync_spec, refresh_spec]
    exact (foundVersion_tree settings client options transformer root hkeeps trace.tree).trans
      (syncedTree_of_keepsTree settings client options transformer root hkeeps trace.tree)
  exact stamp_congr settings options _ hfound

/-- What is done behind the question is accounted for, by a client that keeps the tree. -/
theorem accounted_complete (hkeeps : client.KeepsTree) {trace : Trace} {modified : Bool}
    (hsetUp : setUp settings = .ok transformer)
    (hmodified : modified = true ↔
      options.dryRun = false ∧ (client.modifications root trace.tree).1 = .ok true)
    (hwarnings : trace.warnings = if modified then [.modified root] else []) :
    Accounted settings client options trace.tree
      (complete settings client options transformer root modified trace).1 := by
  have hreport := complete_report hkeeps settings options transformer root modified trace
  have hstamping := complete_stamping hkeeps settings options transformer root modified trace
  refine ⟨?_, fun row _ => row.outcome.told, hmodified, ?_,
    ⟨transformer, hsetUp, hreport, hstamping, ?_⟩, ?_⟩
  · rw [hreport]
    exact Sync.Job.mappings_syncAll _ settings.mappings.toList trace.tree
  · intro failure
    exact refresh_eq_failed_iff client options root (trace.log (.enter .refresh)) failure
  · rw [hstamping]
    exact stamp_eq_targetMissing_iff
  · have hcomplete :=
      complete_warnings settings client options transformer root modified trace rfl
    rwa [hwarnings] at hcomplete

end

/-! ## Whole runs -/

section

variable {settings : Settings} {client client' : Client} {policy : Confirmation.Policy}
  {options options' : Options} {tree : Tree}

/-- A completed run by a client that keeps the tree is accounted for. -/
theorem accounted_run (hkeeps : client.KeepsTree) {outcome : Outcome} {trace : Trace}
    (h : run settings client policy options tree = (.ok outcome, trace)) :
    Accounted settings client options tree outcome := by
  rcases run_cases settings client policy options tree with
    ⟨failure, events, hrun, -, -⟩ |
    ⟨transformer, root, hsetUp, -, ⟨failure, -, hrun⟩ | ⟨modified, hinspect, hrun⟩⟩ <;>
    rw [hrun] at h
  · cases h
  · cases h
  · obtain ⟨rfl, -⟩ := Prod.ext_iff.1 h |>.imp_left Except.ok.inj
    have htree := inspect_tree hkeeps policy options root tree
    have hmodified : modified = true ↔ options.dryRun = false ∧ (client.modifications root
        (inspect client policy options root (beginning tree)).2.tree).1 = .ok true := by
      rw [htree]
      exact inspect_eq_modified hinspect
    have haccounted := accounted_complete hkeeps hsetUp hmodified (inspect_warnings hinspect)
    rwa [htree] at haccounted

/-- Clients that keep the tree and agree about changes of the checkout are asked to the same end. -/
theorem inspect_eq_of_answers (hkeeps : client.KeepsTree) (hkeeps' : client'.KeepsTree)
    (hdry : options.dryRun = false) (hdry' : options'.dryRun = false) {root : Path} {trace : Trace}
    (hanswer : (client'.modifications root trace.tree).1 = (client.modifications root trace.tree).1) :
    inspect client' policy options' root trace = inspect client policy options root trace := by
  have hsame : client'.modifications root trace.tree = client.modifications root trace.tree := by
    refine Prod.ext hanswer ?_
    rw [hkeeps.modifications, hkeeps'.modifications]
  unfold inspect
  rw [hdry, hdry', hsame]

/-- Runs behind the same question are parallel. -/
theorem parallel_complete (hkeeps : client.KeepsTree) (hkeeps' : client'.KeepsTree)
    (hdry : options.dryRun = false) (hdry' : options'.dryRun = false) (transformer : Transformer)
    (root : Path) (modified : Bool) (trace : Trace) :
    Parallel settings.stampTargetPath
      (.ok (complete settings client options transformer root modified trace).1,
        (complete settings client options transformer root modified trace).2)
      (.ok (complete settings client' options' transformer root modified trace).1,
        (complete settings client' options' transformer root modified trace).2) := by
  have hjob : job settings transformer options' root = job settings transformer options root := by
    rw [job, job, hdry, hdry']
  obtain ⟨-, hleft⟩ := complete_of_keepsTree settings client options transformer root hkeeps modified
    trace rfl
  obtain ⟨-, hleft'⟩ := complete_of_keepsTree settings client' options' transformer root hkeeps'
    modified trace rfl
  rw [hdry, if_neg (by simp)] at hleft
  rw [hdry', if_neg (by simp), hjob] at hleft'
  refine .completed rfl rfl ?_ ?_
  · rw [complete_report hkeeps, complete_report hkeeps', hjob]
  · rw [hleft, hleft']
    exact (Stamp.Edited.of_apply _ _ _ _).symm.trans (Stamp.Edited.of_apply _ _ _ _)

/-- Runs from one tree by clients that agree about changes of the checkout are parallel. -/
theorem parallel_run (hkeeps : client.KeepsTree) (hkeeps' : client'.KeepsTree)
    (hdry : options.dryRun = false) (hdry' : options'.dryRun = false)
    (hanswer : ∀ root, (client'.modifications root tree).1 = (client.modifications root tree).1) :
    Parallel settings.stampTargetPath (run settings client policy options tree)
      (run settings client' policy options' tree) := by
  cases hsetUp : setUp settings with
  | error failure =>
      unfold run
      rw [hsetUp]
      exact .aborted _ _
  | ok transformer =>
      cases hlocate : Checkout.locate tree settings.candidates (some settings.cloneUrl) with
      | error error =>
          unfold run
          simp only [hsetUp, hlocate]
          exact .aborted _ _
      | ok root =>
          have hinspect : inspect client' policy options' root (beginning tree) =
              inspect client policy options root (beginning tree) :=
            inspect_eq_of_answers hkeeps hkeeps' hdry hdry' (hanswer root)
          rw [run_eq hsetUp hlocate, run_eq hsetUp hlocate, hinspect]
          cases (inspect client policy options root (beginning tree)).1 with
          | error failure => exact .aborted _ _
          | ok modified => exact parallel_complete hkeeps hkeeps' hdry hdry' transformer root modified _

end

/-- Runs that end alike have the same exit status. -/
theorem Parallel.exitStatus {target : Path} {r r' : Except Failure Outcome × Trace}
    (h : Parallel target r r') : Pipeline.exitStatus r'.1 = Pipeline.exitStatus r.1 := by
  cases h with
  | aborted failure trace => rfl
  | completed hroot hmodified hreport hedited =>
      unfold Pipeline.exitStatus
      simp only [hreport]

/-- A completed run accounts for what it did, the exit status tells how it ended, and neither rows
nor exit status depend on what is soft. -/
theorem run_accounted (settings : Settings) (policy : Confirmation.Policy) (tree : Tree)
    {client : Client} (hkeeps : client.KeepsTree) :
    (∀ options outcome trace, run settings client policy options tree = (.ok outcome, trace) →
      Accounted settings client options tree outcome) ∧
    (∀ result, (exitStatus result = 0 ↔ ∃ outcome, result = .ok outcome ∧
        ∀ row ∈ outcome.report.rows, row.outcome.isSynced = true) ∧
      (exitStatus result = 2 ↔ ∃ outcome, result = .ok outcome ∧
        ∃ row ∈ outcome.report.rows, row.outcome.isSynced = false) ∧
      (exitStatus result = 1 ↔ ∃ failure, result = .error failure)) ∧
    ∀ client' options options', client'.KeepsTree → options.dryRun = false →
      options'.dryRun = false →
      (∀ root, (client'.modifications root tree).1 = (client.modifications root tree).1) →
        Parallel settings.stampTargetPath (run settings client policy options tree)
          (run settings client' policy options' tree) ∧
        exitStatus (run settings client' policy options' tree).1 =
          exitStatus (run settings client policy options tree).1 := by
  refine ⟨fun options outcome trace h => accounted_run hkeeps h, exitStatus_iff, ?_⟩
  intro client' options options' hkeeps' hdry hdry' hanswer
  have hparallel : Parallel settings.stampTargetPath (run settings client policy options tree)
      (run settings client' policy options' tree) :=
    parallel_run hkeeps hkeeps' hdry hdry' hanswer
  exact ⟨hparallel, hparallel.exitStatus⟩

/-- A client that cannot refresh the checkout and knows no version of it. -/
def offline : VersionControl.Script :=
  { refresh := .error "offline" }

/-- A checkout without a file. -/
def bareTree : Tree :=
  { root := .directory [("w".toList, .directory [("meta-hymo".toList, .directory [])])]
    here := [] }

/-- A run in which refreshing fails, the source is missing and there is nothing to stamp warns of
all three, and a client that knows the version makes no difference. -/
theorem run_accounted_sample :
    offline.client.KeepsTree ∧
      (∃ outcome trace, run soloSettings offline.client .proceed {} bareTree = (.ok outcome, trace) ∧
        Accounted soloSettings offline.client {} bareTree outcome ∧
        outcome.stamping = .stamped .targetMissing ∧
        outcome.warnings = [.notRefreshed (.scripted "offline"),
          .notSynced ⟨"main.cpp"⟩ (.sourceMissing ⟨"w/meta-hymo/src/main.cpp"⟩),
          .targetMissing ⟨"w/p/host/src/hymo/hymo_cli.cpp"⟩]) ∧
      Parallel soloSettings.stampTargetPath
        (run soloSettings offline.client .proceed {} bareTree)
        (run soloSettings (VersionControl.Script.clean "v1").client .proceed { refresh := false }
          bareTree) ∧
      exitStatus (run soloSettings (VersionControl.Script.clean "v1").client .proceed
          { refresh := false } bareTree).1 =
        exitStatus (run soloSettings offline.client .proceed {} bareTree).1 := by
  have hkeeps := offline.client_keepsTree
  obtain ⟨haccounted, -, hparallel⟩ := run_accounted soloSettings .proceed bareTree hkeeps
  refine ⟨hkeeps, ?_, hparallel _ {} { refresh := false }
    (VersionControl.Script.clean "v1").client_keepsTree rfl rfl fun _ => rfl⟩
  have hended : (run soloSettings offline.client .proceed {} bareTree).1.toOption.map
      (fun outcome => (outcome.stamping, outcome.warnings)) =
        some (.stamped .targetMissing, [.notRefreshed (.scripted "offline"),
          .notSynced ⟨"main.cpp"⟩ (.sourceMissing ⟨"w/meta-hymo/src/main.cpp"⟩),
          .targetMissing ⟨"w/p/host/src/hymo/hymo_cli.cpp"⟩]) := by
    decide +kernel
  cases hrun : run soloSettings offline.client .proceed {} bareTree with
  | mk result trace =>
      rw [hrun] at hended
      cases result with
      | error failure => cases hended
      | ok outcome =>
          obtain ⟨hstamping, hwarnings⟩ := Prod.ext_iff.1 (Option.some.inj hended)
          exact ⟨outcome, trace, rfl, haccounted {} outcome trace hrun, hstamping, hwarnings⟩

end Pipeline

end Vendoring
