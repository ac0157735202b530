import Vendoring.Pipeline
import Vendoring.Proofs.Settings.Built
import Vendoring.Proofs.Update.Effect

/-!
# The trace of a run

A run ends before it asks anything, or with the question whether the checkout has changes, or it
goes on to the end (`run_cases`). What comes of the question is listed once (`Inspects`). What the run
does behind it is told by the trees it goes through: the refreshed, the synchronised and the stamped
one (`complete_spec`).

A client may change the tree by its answers, which is not the run's doing: `Client.replay` is the
tree after the answers alone. For a client that keeps the tree it is the tree itself
(`replay_of_keepsTree`), and then a run leaves the tree as it is, or it leaves the synchronised and
stamped one behind (`run_cases_of_keepsTree`).
-/

namespace Vendoring

namespace VersionControl.Client

/-- The tree after the answer to a query. -/
def after (client : Client) (root : Path) (query : Query) (tree : Tree) : Tree :=
  match query with
  | .modifications => (client.modifications root tree).2
  | .refresh => (client.refresh root tree).2
  | .label => (client.label root tree).2
  | .revision => (client.revision root tree).2

/-- The tree after the answers to queries, if nothing else happens. -/
def replay (client : Client) (root : Path) (queries : List Query) (tree : Tree) : Tree :=
  queries.foldl (fun tree query => client.after root query tree) tree

/-- A client that keeps every tree keeps it over any number of answers. -/
theorem replay_of_keepsTree {client : Client} (h : client.KeepsTree) (root : Path)
    (queries : List Query) (tree : Tree) : client.replay root queries tree = tree := by
  induction queries with
  | nil => rfl
  | cons query queries ih =>
      have hafter : client.after root query tree = tree := by
        cases query with
        | modifications => exact h.modifications root tree
        | refresh => exact h.refresh root tree
        | label => exact h.label root tree
        | revision => exact h.revision root tree
      show client.replay root queries (client.after root query tree) = tree
      rw [hafter, ih]

/-- The queries for the version, by the answer to the one for the label: if there is none, the
revision is asked for. -/
def versionQueries : Except VersionControl.Failure String → List Query
  | .ok _ => [.label]
  | .error _ => [.label, .revision]

/-- Asking for the version asks for the label and, if there is none, for the revision. -/
theorem version_queries (client : Client) (root : Path) (unknown : String) (tree : Tree) :
    (client.version root unknown tree).queries.map Prod.fst =
        versionQueries (client.label root tree).1 ∧
      (client.version root unknown tree).tree =
        client.replay root ((client.version root unknown tree).queries.map Prod.fst) tree ∧
      (client.version root unknown tree).queries.head? = some (.label, tree) := by
  unfold version
  cases hlabel : client.label root tree with
  | mk result left =>
      cases result with
      | ok label => simp [replay, after, hlabel, versionQueries]
      | error failure =>
          cases hrevision : client.revision root left with
          | mk result final => cases result <;> simp [replay, after, hlabel, hrevision, versionQueries]

end VersionControl.Client

namespace Pipeline

open VersionControl (Client Query)

/-! ## Traces -/

/-- The queries among events. -/
def queriesOf (events : List Event) : List Query :=
  events.filterMap fun event =>
    match event.action with
    | .query query _ => some query
    | _ => none

/-- The decisions among events. -/
def decisionsOf (events : List Event) : List Path :=
  events.filterMap fun event =>
    match event.action with
    | .decide root => some root
    | _ => none

/-- The queries of a trace are those among its events. -/
theorem queries_eq (trace : Trace) : trace.queries = queriesOf trace.events :=
  rfl

/-- The decisions of a trace are those among its events. -/
theorem decisions_eq (trace : Trace) : trace.decisions = decisionsOf trace.events :=
  rfl

/-- Warnings one after the other stand behind those that there were, and are all that is new. -/
theorem Trace.foldl_warn {α : Type} (warningOf : α → Warning) (items : List α) (trace : Trace) :
    items.foldl (fun trace item => trace.warn (warningOf item)) trace =
      { trace with warnings := trace.warnings ++ items.map warningOf } := by
  induction items generalizing trace with
  | nil => simp
  | cons item items ih =>
      rw [List.foldl_cons, ih, Trace.warn, List.map_cons, List.append_assoc, List.singleton_append]

/-- Queries among events in front stand in front. -/
@[simp] theorem queriesOf_append (events events' : List Event) :
    queriesOf (events ++ events') = queriesOf events ++ queriesOf events' :=
  List.filterMap_append

/-- Decisions among events in front stand in front. -/
@[simp] theorem decisionsOf_append (events events' : List Event) :
    decisionsOf (events ++ events') = decisionsOf events ++ decisionsOf events' :=
  List.filterMap_append

/-- Without events there are no queries. -/
@[simp] theorem queriesOf_nil : queriesOf [] = [] :=
  rfl

/-- Without events there are no decisions. -/
@[simp] theorem decisionsOf_nil : decisionsOf [] = [] :=
  rfl

/-- Entering a stage is no query. -/
@[simp] theorem queriesOf_enter (stage : Stage) (tree : Tree) (events : List Event) :
    queriesOf (⟨.enter stage, tree⟩ :: events) = queriesOf events :=
  rfl

/-- Entering a stage is no decision. -/
@[simp] theorem decisionsOf_enter (stage : Stage) (tree : Tree) (events : List Event) :
    decisionsOf (⟨.enter stage, tree⟩ :: events) = decisionsOf events :=
  rfl

/-! ## The question -/

/-- The queries with which a run looks at the checkout. -/
def inspection (options : Options) : List Query :=
  if options.dryRun then [] else [.modifications]

/-- The queries with which a run refreshes the checkout. -/
def refreshment (options : Options) : List Query :=
  if options.dryRun || !options.refresh then [] else [.refresh]

/-- What looking at the checkout comes to. In a dry run nothing is asked. Otherwise the client
fails, knows of no changes, or knows of changes, and then the policy agrees to them or not. -/
inductive Inspects (client : Client) (policy : Confirmation.Policy) (options : Options)
    (root : Path) (trace : Trace) : Except Failure Bool → Trace → Prop
  | dry (hdry : options.dryRun = true) : Inspects client policy options root trace (.ok false) trace
  | failed {failure : VersionControl.Failure} {left : Tree} (hdry : options.dryRun = false)
      (hanswer : client.modifications root trace.tree = (.error failure, left)) :
      Inspects client policy options root trace (.error (.uninspected root failure))
        ((trace.log (.query .modifications root)).onTree left)
  | unmodified {left : Tree} (hdry : options.dryRun = false)
      (hanswer : client.modifications root trace.tree = (.ok false, left)) :
      Inspects client policy options root trace (.ok false)
        ((trace.log (.query .modifications root)).onTree left)
  | agreed {left : Tree} (hdry : options.dryRun = false)
      (hanswer : client.modifications root trace.tree = (.ok true, left))
      (hagreed : policy.decide root = true) :
      Inspects client policy options root trace (.ok true)
        ((((trace.log (.query .modifications root)).onTree left).log (.decide root)).warn
          (.modified root))
  | declined {left : Tree} (hdry : options.dryRun = false)
      (hanswer : client.modifications root trace.tree = (.ok true, left))
      (hdeclined : policy.decide root = false) :
      Inspects client policy options root trace (.error (.declined root))
        (((trace.log (.query .modifications root)).onTree left).log (.decide root))

/-- Looking at the checkout comes to one of the cases. -/
theorem inspects (client : Client) (policy : Confirmation.Policy) (options : Options)
    (root : Path) (trace : Trace) :
    Inspects client policy options root trace (inspect client policy options root trace).1
      (inspect client policy options root trace).2 := by
  unfold inspect
  by_cases hdry : options.dryRun = true
  · rw [if_pos hdry]
    exact .dry hdry
  rw [if_neg hdry]
  have hasks := Bool.eq_false_iff.2 hdry
  cases hanswer : client.modifications root trace.tree with
  | mk result left =>
      cases result with
      | error failure => exact .failed hasks hanswer
      | ok modified =>
          cases modified with
          | false => exact .unmodified hasks hanswer
          | true =>
              simp only
              split
              · rename_i hagreed
                exact .agreed hasks hanswer hagreed
              · rename_i hdeclined
                exact .declined hasks hanswer (Bool.eq_false_iff.2 hdeclined)

/-- Looking at the checkout asks one question, none in a dry run, and leaves the tree to the client.
The policy is asked only about changes, and the run goes on with them only if it agrees. -/
theorem inspect_spec (client : Client) (policy : Confirmation.Policy) (options : Options)
    (root : Path) (trace : Trace) :
    ∃ new, (inspect client policy options root trace).2.events = trace.events ++ new ∧
      queriesOf new = inspection options ∧
      (inspect client policy options root trace).2.tree =
        client.replay root (inspection options) trace.tree ∧
      (∀ event ∈ new, event.tree = trace.tree ∨
        event.tree = client.replay root (inspection options) trace.tree) ∧
      (options.dryRun = true → decisionsOf new = [] ∧
        (inspect client policy options root trace).1 = .ok false) ∧
      (options.dryRun = false → (client.modifications root trace.tree).1 = .ok true →
        decisionsOf new = [root] ∧
        ∀ modified, (inspect client policy options root trace).1 = .ok modified →
          policy.decide root = true) := by
  have hinspects := inspects client policy options root trace
  generalize (inspect client policy options root trace).1 = result at hinspects ⊢
  generalize (inspect client policy options root trace).2 = left at hinspects ⊢
  unfold inspection
  cases hinspects with
  | dry hdry => exact ⟨[], by simp [queriesOf, decisionsOf, Client.replay, hdry]⟩
  | failed hdry hanswer | unmodified hdry hanswer =>
      refine ⟨[⟨.query .modifications root, trace.tree⟩], ?_⟩
      simp [Trace.log, Trace.onTree, queriesOf, Client.replay, Client.after, hanswer, hdry]
  | @agreed asked hdry hanswer hagreed =>
      refine ⟨[⟨.query .modifications root, trace.tree⟩, ⟨.decide root, asked⟩], ?_⟩
      simp [Trace.log, Trace.warn, Trace.onTree, queriesOf, decisionsOf, Client.replay,
        Client.after, hanswer, hdry, hagreed]
  | @declined asked hdry hanswer hdeclined =>
      refine ⟨[⟨.query .modifications root, trace.tree⟩, ⟨.decide root, asked⟩], ?_⟩
      simp [Trace.log, Trace.onTree, queriesOf, decisionsOf, Client.replay, Client.after, hanswer,
        hdry]

/-- Whether a run goes on is told by the answer to the question and by the policy. -/
theorem inspect_result (client : Client) (policy : Confirmation.Policy) (options : Options)
    (root : Path) (trace : Trace) :
    (inspect client policy options root trace).1 =
      if options.dryRun then .ok false
      else match (client.modifications root trace.tree).1 with
        | .error failure => .error (.uninspected root failure)
        | .ok modified =>
          if modified && !policy.decide root then .error (.declined root) else .ok modified := by
  have hinspects := inspects client policy options root trace
  generalize (inspect client policy options root trace).1 = result at hinspects ⊢
  generalize (inspect client policy options root trace).2 = left at hinspects
  cases hinspects with
  | dry hdry => rw [if_pos hdry]
  | failed hdry hanswer | unmodified hdry hanswer => simp [hdry, hanswer]
  | agreed hdry hanswer hagreed => simp [hdry, hanswer, hagreed]
  | declined hdry hanswer hdeclined => simp [hdry, hanswer, hdeclined]

/-! ## Behind the question -/

section

variable (settings : Settings) (client : Client) (options : Options) (transformer : Transformer)
  (root : Path)

/-- The tree after refreshing. -/
def refreshedTree (tree : Tree) : Tree :=
  client.replay root (refreshment options) tree

/-- The tree after synchronising. -/
def syncedTree (tree : Tree) : Tree :=
  ((job settings transformer options root).run settings.mappings
    (refreshedTree client options root tree)).2

/-- The version that is found after synchronising. -/
def foundVersion (tree : Tree) : VersionControl.Version :=
  client.version root settings.unknownVersion
    (syncedTree settings client options transformer root tree)

/-- The tree after stamping. -/
def stampedTree (tree : Tree) : Tree :=
  let found := foundVersion settings client options transformer root tree
  if options.dryRun then found.tree
  else (Stamp.apply found.tree settings.stampTargetPath settings.stampPrefix
    (Stamp.line settings.stampPrefix found.label)).2

/-- Refreshing asks at most one question and leaves the tree to the client. -/
theorem refresh_spec (trace : Trace) :
    (refresh client options root trace).2.events =
        trace.events ++ (refreshment options).map (⟨.query · root, trace.tree⟩) ∧
      (refresh client options root trace).2.tree =
        refreshedTree client options root trace.tree := by
  unfold refresh refreshedTree refreshment
  by_cases hskip : (options.dryRun || !options.refresh) = true
  · rw [if_pos hskip, if_pos hskip]
    simp [Client.replay]
  · rw [if_neg hskip, if_neg hskip]
    cases hanswer : client.refresh root trace.tree with
    | mk result left =>
        cases result <;>
          simp [Trace.log, Trace.warn, Trace.onTree, Client.replay, Client.after, hanswer]

/-- Synchronising asks nothing and runs the job. -/
theorem sync_spec (trace : Trace) :
    (sync settings transformer options root trace).2.events = trace.events ∧
      (sync settings transformer options root trace).2.tree =
        ((job settings transformer options root).run settings.mappings trace.tree).2 := by
  unfold sync
  simp only [Trace.foldl_warn]
  exact ⟨rfl, rfl⟩

/-- Stamping asks nothing and changes the tree unless the run is a dry one. -/
theorem stamp_spec (version : String) (trace : Trace) :
    (stamp settings options version trace).2.events = trace.events ∧
      (stamp settings options version trace).2.tree =
        if options.dryRun then trace.tree
        else (Stamp.apply trace.tree settings.stampTargetPath settings.stampPrefix
          (Stamp.line settings.stampPrefix version)).2 := by
  unfold stamp
  by_cases hdry : options.dryRun = true
  · rw [if_pos hdry, if_pos hdry]
    exact ⟨rfl, rfl⟩
  · rw [if_neg hdry, if_neg hdry]
    simp only
    split <;> rename_i heq <;> rw [heq] <;> exact ⟨rfl, rfl⟩

/-- What is done behind the question, with the trees that are found, and what is left behind. -/
theorem complete_spec (modified : Bool) (trace : Trace) :
    (complete settings client options transformer root modified trace).2.events =
        trace.events ++ ⟨.enter .refresh, trace.tree⟩ ::
          ((refreshment options).map (⟨.query · root, trace.tree⟩) ++
            ⟨.enter .sync, refreshedTree client options root trace.tree⟩ ::
            ⟨.enter .stamp, syncedTree settings client options transformer root trace.tree⟩ ::
            ((foundVersion settings client options transformer root trace.tree).queries.map
              fun (query, tree) => ⟨.query query root, tree⟩) ++
            [⟨.enter .done, stampedTree settings client options transformer root trace.tree⟩]) ∧
      (complete settings client options transformer root modified trace).2.tree =
        stampedTree settings client options transformer root trace.tree := by
  unfold complete
  simp only [Trace.log, stamp_spec, version, sync_spec, refresh_spec]
  exact ⟨by simp [stampedTree, foundVersion, syncedTree], rfl⟩

/-- The root and the version in the outcome are those that the run worked with. -/
theorem complete_outcome (modified : Bool) (trace : Trace) :
    (complete settings client options transformer root modified trace).1.root = root ∧
      (complete settings client options transformer root modified trace).1.version =
        (foundVersion settings client options transformer root trace.tree).label := by
  refine ⟨rfl, ?_⟩
  unfold complete
  simp only [version, Trace.log, sync_spec, refresh_spec]
  rfl

/-- Refreshing by a client that keeps the tree has no part in what is synchronised. -/
theorem syncedTree_of_keepsTree (hkeeps : client.KeepsTree) (tree : Tree) :
    syncedTree settings client options transformer root tree =
      ((job settings transformer options root).run settings.mappings tree).2 := by
  rw [syncedTree, refreshedTree, Client.replay_of_keepsTree hkeeps]

/-- A client that keeps the tree leaves it as it was synchronised when it finds the version. -/
theorem foundVersion_tree (hkeeps : client.KeepsTree) (tree : Tree) :
    (foundVersion settings client options transformer root tree).tree =
      syncedTree settings client options transformer root tree := by
  rw [foundVersion, (client.version_queries root _ _).2.1, Client.replay_of_keepsTree hkeeps]

/-- What is done behind the question if the client keeps the tree. -/
theorem complete_of_keepsTree (hkeeps : client.KeepsTree) (modified : Bool) (trace : Trace)
    {synced : Tree}
    (hsynced : ((job settings transformer options root).syncAll settings.mappings.toList
      trace.tree).2 = synced) :
    (complete settings client options transformer root modified trace).1.version =
        (client.version root settings.unknownVersion synced).label ∧
      (complete settings client options transformer root modified trace).2.tree =
        if options.dryRun then synced
        else (Stamp.apply synced settings.stampTargetPath settings.stampPrefix
          (Stamp.line settings.stampPrefix
            (client.version root settings.unknownVersion synced).label)).2 := by
  have hsame : syncedTree settings client options transformer root trace.tree = synced :=
    (syncedTree_of_keepsTree settings client options transformer root hkeeps trace.tree).trans
      hsynced
  have hfound := foundVersion_tree settings client options transformer root hkeeps trace.tree
  unfold foundVersion at hfound
  rw [hsame] at hfound
  refine ⟨?_, ?_⟩
  · rw [(complete_outcome settings client options transformer root modified trace).2, foundVersion,
      hsame]
  · rw [(complete_spec settings client options transformer root modified trace).2, stampedTree,
      foundVersion, hsame]
    simp only [hfound]

end

/-! ## The whole run -/

/-- The events with which a run sets up and looks for the checkout. -/
def beginning (tree : Tree) : Trace :=
  ⟨[⟨.enter .setUp, tree⟩, ⟨.enter .locate, tree⟩, ⟨.enter .inspect, tree⟩], [], tree⟩

/-- Settings that hold together set up a transformer. -/
theorem exists_setUp {settings : Settings} (h : settings.validate = .ok ()) :
    ∃ transformer, setUp settings = .ok transformer := by
  obtain ⟨destination, hdestination⟩ := Settings.exists_entryPointDestination h
  unfold setUp Transformer.ofSettings FragmentContext.ofSettings
  simp only [h, hdestination]
  exact ⟨_, rfl⟩

/-- The answer to the question depends on the tree by what the client says about it. -/
theorem inspect_congr {client : Client} (policy : Confirmation.Policy) (options : Options)
    {root : Path} {trace trace' : Trace}
    (h : (client.modifications root trace'.tree).1 = (client.modifications root trace.tree).1) :
    (inspect client policy options root trace').1 = (inspect client policy options root trace).1 := by
  rw [inspect_result, inspect_result, h]

/-- With the transformer set up and the checkout found, a run asks its question and, unless that
ends it, goes on to the end. -/
theorem run_eq {settings : Settings} {client : Client} {policy : Confirmation.Policy}
    {options : Options} {tree : Tree} {transformer : Transformer} {root : Path}
    (hsetUp : setUp settings = .ok transformer)
    (hlocate : Checkout.locate tree settings.candidates (some settings.cloneUrl) = .ok root) :
    run settings client policy options tree =
      match (inspect client policy options root (beginning tree)).1 with
      | .error failure =>
        (.error failure, (inspect client policy options root (beginning tree)).2)
      | .ok modified =>
        (.ok (complete settings client options transformer root modified
            (inspect client policy options root (beginning tree)).2).1,
          (complete settings client options transformer root modified
            (inspect client policy options root (beginning tree)).2).2) := by
  have hbeginning : (((Trace.start tree).log (.enter .setUp)).log (.enter .locate)).log
      (.enter .inspect) = beginning tree := rfl
  unfold run
  simp only [hsetUp, hlocate, hbeginning]
  cases inspect client policy options root (beginning tree) with
  | mk result trace => cases result <;> rfl

/-- A run that gets past the question goes on to the end. -/
theorem run_of_inspect {settings : Settings} {client : Client} {policy : Confirmation.Policy}
    {options : Options} {tree : Tree} {transformer : Transformer} {root : Path} {modified : Bool}
    (hsetUp : setUp settings = .ok transformer)
    (hlocate : Checkout.locate tree settings.candidates (some settings.cloneUrl) = .ok root)
    (hinspect : (inspect client policy options root (beginning tree)).1 = .ok modified) :
    run settings client policy options tree =
      (.ok (complete settings client options transformer root modified
          (inspect client policy options root (beginning tree)).2).1,
        (complete settings client options transformer root modified
          (inspect client policy options root (beginning tree)).2).2) := by
  rw [run_eq hsetUp hlocate, hinspect]

/-- A run ends before it asks anything, or with the question, or it goes on to the end. -/
theorem run_cases (settings : Settings) (client : Client) (policy : Confirmation.Policy)
    (options : Options) (tree : Tree) :
    (∃ failure events, run settings client policy options tree = (.error failure, ⟨events, [], tree⟩) ∧
        queriesOf events = [] ∧ decisionsOf events = []) ∨
      ∃ transformer root, setUp settings = .ok transformer ∧
        Checkout.locate tree settings.candidates (some settings.cloneUrl) = .ok root ∧
        ((∃ failure, (inspect client policy options root (beginning tree)).1 = .error failure ∧
            run settings client policy options tree =
              (.error failure, (inspect client policy options root (beginning tree)).2)) ∨
          ∃ modified, (inspect client policy options root (beginning tree)).1 = .ok modified ∧
            run settings client policy options tree =
              (.ok (complete settings client options transformer root modified
                (inspect client policy options root (beginning tree)).2).1,
              (complete settings client options transformer root modified
                (inspect client policy options root (beginning tree)).2).2)) := by
  cases hsetUp : setUp settings with
  | error failure =>
      refine Or.inl ⟨failure, [⟨.enter .setUp, tree⟩], ?_, rfl, rfl⟩
      unfold run
      rw [hsetUp]
      rfl
  | ok transformer =>
      cases hlocate : Checkout.locate tree settings.candidates (some settings.cloneUrl) with
      | error error =>
          refine Or.inl ⟨.checkout error, [⟨.enter .setUp, tree⟩, ⟨.enter .locate, tree⟩], ?_, rfl,
            rfl⟩
          unfold run
          simp only [hsetUp, hlocate]
          rfl
      | ok root =>
          refine Or.inr ⟨transformer, root, rfl, rfl, ?_⟩
          rw [run_eq hsetUp hlocate]
          cases (inspect client policy options root (beginning tree)).1 with
          | error failure => exact Or.inl ⟨failure, rfl, rfl⟩
          | ok modified => exact Or.inr ⟨modified, rfl, rfl⟩

/-! ## Clients that keep the tree -/

/-- What a run that completes with a client that keeps the tree has found, and what it leaves
behind. -/
structure Completed (settings : Settings) (client : Client) (policy : Confirmation.Policy)
    (options : Options) (transformer : Transformer) (tree : Tree) (outcome : Outcome)
    (left : Tree) : Prop where
  setUp : setUp settings = .ok transformer
  located : Checkout.locate tree settings.candidates (some settings.cloneUrl) = .ok outcome.root
  inspected : ∃ modified,
    (inspect client policy options outcome.root (beginning tree)).1 = .ok modified
  version : outcome.version = (client.version outcome.root settings.unknownVersion
    ((job settings transformer options outcome.root).syncAll settings.mappings.toList tree).2).label
  left : left =
    if options.dryRun then
      ((job settings transformer options outcome.root).syncAll settings.mappings.toList tree).2
    else (Stamp.apply
      ((job settings transformer options outcome.root).syncAll settings.mappings.toList tree).2
      settings.stampTargetPath settings.stampPrefix
      (Stamp.line settings.stampPrefix outcome.version)).2

section

variable {settings : Settings} {client : Client} {policy : Confirmation.Policy}
  {options : Options} {tree : Tree}

/-- The question leaves the tree as it is. -/
theorem inspect_tree (hkeeps : client.KeepsTree) (policy : Confirmation.Policy) (options : Options)
    (root : Path) (tree : Tree) :
    (inspect client policy options root (beginning tree)).2.tree = tree := by
  obtain ⟨-, -, -, htree, -⟩ := inspect_spec client policy options root (beginning tree)
  rwa [Client.replay_of_keepsTree hkeeps] at htree

/-- A run that gets past the question completes. -/
theorem exists_completed (hkeeps : client.KeepsTree) {transformer : Transformer} {root : Path}
    {modified : Bool} (hsetUp : setUp settings = .ok transformer)
    (hlocate : Checkout.locate tree settings.candidates (some settings.cloneUrl) = .ok root)
    (hinspect : (inspect client policy options root (beginning tree)).1 = .ok modified) :
    ∃ outcome trace, run settings client policy options tree = (.ok outcome, trace) ∧
      Completed settings client policy options transformer tree outcome trace.tree := by
  obtain ⟨hversion, hleft⟩ := complete_of_keepsTree settings client options transformer root
    hkeeps modified (inspect client policy options root (beginning tree)).2 rfl
  rw [inspect_tree hkeeps] at hversion hleft
  refine ⟨_, _, run_of_inspect hsetUp hlocate hinspect, hsetUp, hlocate, ⟨modified, hinspect⟩,
    hversion, ?_⟩
  rw [hleft, hversion]
  rfl

/-- A run by a client that keeps the tree fails and leaves the tree as it is, or it completes. -/
theorem run_cases_of_keepsTree (hkeeps : client.KeepsTree) (settings : Settings)
    (policy : Confirmation.Policy) (options : Options) (tree : Tree) :
    (∃ failure trace, run settings client policy options tree = (.error failure, trace) ∧
        trace.tree = tree) ∨
      ∃ transformer outcome trace,
        run settings client policy options tree = (.ok outcome, trace) ∧
        Completed settings client policy options transformer tree outcome trace.tree := by
  rcases run_cases settings client policy options tree with
    ⟨failure, events, hrun, -, -⟩ |
    ⟨transformer, root, hsetUp, hlocate, ⟨failure, -, hrun⟩ | ⟨modified, hinspect, -⟩⟩
  · exact Or.inl ⟨failure, _, hrun, rfl⟩
  · exact Or.inl ⟨failure, _, hrun, inspect_tree hkeeps policy options root tree⟩
  · exact Or.inr ⟨transformer, exists_completed hkeeps hsetUp hlocate hinspect⟩

end

/-! ## Questions among the events -/

/-- The events of asking for the version are its queries, and no decision. -/
theorem queriesOf_version (root : Path) (queries : List (Query × Tree)) :
    queriesOf (queries.map fun (query, tree) => ⟨.query query root, tree⟩) =
        queries.map Prod.fst ∧
      decisionsOf (queries.map fun (query, tree) => ⟨.query query root, tree⟩) = [] := by
  induction queries with
  | nil => exact ⟨rfl, rfl⟩
  | cons first queries ih =>
      obtain ⟨hqueries, hdecisions⟩ := ih
      exact ⟨congrArg (first.1 :: ·) hqueries, hdecisions⟩

/-- A run begins without a query or a decision, and leaves the tree alone meanwhile. -/
theorem beginning_eq (tree : Tree) :
    queriesOf (beginning tree).events = [] ∧ decisionsOf (beginning tree).events = [] ∧
      ∀ event ∈ (beginning tree).events, event.tree = tree := by
  refine ⟨rfl, rfl, ?_⟩
  intro event hevent
  simp only [beginning, List.mem_cons, List.not_mem_nil, or_false] at hevent
  rcases hevent with rfl | rfl | rfl <;> rfl

/-- The events of queries are these queries, and no decision. -/
theorem queriesOf_map (root : Path) (tree : Tree) (queries : List Query) :
    queriesOf (queries.map (⟨.query · root, tree⟩)) = queries ∧
      decisionsOf (queries.map (⟨.query · root, tree⟩)) = [] := by
  induction queries with
  | nil => exact ⟨rfl, rfl⟩
  | cons query queries ih => exact ⟨congrArg (query :: ·) ih.1, ih.2⟩

end Pipeline

end Vendoring
