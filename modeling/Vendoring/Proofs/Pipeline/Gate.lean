import Vendoring.Cli.Command
import Vendoring.Proofs.Pipeline.Trace
import Vendoring.Proofs.Sync.Locality

/-!
# What a run does before it is allowed to write

Whatever the settings, the client and the policy, a run that ends with an error has asked at most
whether the checkout has changes of its own, and it has left the tree alone. A dry run leaves the
tree alone. A run on a checkout with changes writes and refreshes only if the policy agreed. A run
that completes has asked exactly the questions it should, in order, and everything before it
refreshes finds the tree as it was (`run_gated`).
-/

namespace Vendoring.Pipeline

open VersionControl (Client Query)

/-- A run asks before it acts, and does not act if the answer forbids it. -/
structure Gated (settings : Settings) (client : Client) (policy : Confirmation.Policy)
    (options : Options) (tree : Tree) (result : Except Failure Outcome) (trace : Trace) :
    Prop where
  /-- A run that fails has asked nothing, or only whether the checkout has changes, and it leaves the
  tree to the client. -/
  failed : ∀ failure, result = .error failure →
    trace.queries = [] ∧ trace.tree = tree ∨
      ∃ root, trace.queries = [.modifications] ∧
        trace.tree = client.replay root [.modifications] tree
  /-- A dry run asks neither the policy nor for changes nor for a refresh, and it leaves the tree to
  the client. -/
  dry : options.dryRun = true →
    trace.decisions = [] ∧ .modifications ∉ trace.queries ∧ .refresh ∉ trace.queries ∧
      ∃ root, trace.tree = client.replay root trace.queries tree
  /-- If the checkout has changes, it is refreshed or the tree is changed by something else than the
  client only after the policy agreed. -/
  agreed : ∀ root,
    Checkout.locate tree settings.candidates (some settings.cloneUrl) = .ok root →
    (client.modifications root tree).1 = .ok true →
    .refresh ∈ trace.queries ∨ trace.tree ≠ client.replay root trace.queries tree →
      policy.decide root = true ∧ trace.decisions = [root]
  /-- A run that completes asks its questions in order. Before it refreshes it finds the tree as it
  was, and from then on it asks the policy nothing. -/
  ordered : ∀ outcome, result = .ok outcome →
    ∃ before after found,
      trace.events = before ++ ⟨.enter .refresh,
        client.replay outcome.root (inspection options) tree⟩ :: after ∧
      (∀ event ∈ before, event.tree = tree ∨
        event.tree = client.replay outcome.root (inspection options) tree) ∧
      decisionsOf after = [] ∧ ⟨.query .label outcome.root, found⟩ ∈ after ∧
      trace.queries = inspection options ++ refreshment options ++
        Client.versionQueries (client.label outcome.root found).1

/-- The questions behind the first one: refreshing, if that is wanted, and the version. -/
theorem complete_queries (settings : Settings) (client : Client) (options : Options)
    (transformer : Transformer) (root : Path) (modified : Bool) (trace : Trace) :
    ∃ new found,
      (complete settings client options transformer root modified trace).2.events =
        trace.events ++ ⟨.enter .refresh, trace.tree⟩ :: new ∧
      decisionsOf new = [] ∧ ⟨.query .label root, found⟩ ∈ new ∧
      queriesOf new = refreshment options ++
        Client.versionQueries (client.label root found).1 ∧
      (options.dryRun = true →
        (complete settings client options transformer root modified trace).2.tree =
          client.replay root (queriesOf new) trace.tree) := by
  obtain ⟨hevents, htree⟩ := complete_spec settings client options transformer root modified trace
  rw [hevents, htree]
  obtain ⟨hversion, hversionTree, hlabel⟩ := client.version_queries root settings.unknownVersion
    (syncedTree settings client options transformer root trace.tree)
  rw [← foundVersion] at hversion hversionTree hlabel
  obtain ⟨hasked, hundecided⟩ := queriesOf_version root
    (foundVersion settings client options transformer root trace.tree).queries
  obtain ⟨hrefresh, hundecided'⟩ := queriesOf_map root trace.tree (refreshment options)
  refine ⟨_, syncedTree settings client options transformer root trace.tree, rfl, ?_, ?_, ?_, ?_⟩
  · simp [hundecided, hundecided']
  · obtain ⟨rest, hrest⟩ := List.head?_eq_some_iff.1 hlabel
    simp [hrest]
  · simp [hasked, hrefresh, hversion]
  · intro hdry
    have hsynced : syncedTree settings client options transformer root trace.tree =
        client.replay root (refreshment options) trace.tree :=
      Sync.Job.syncAll_dry hdry _ _
    simp only [queriesOf_append, queriesOf_enter, queriesOf_nil, hasked, hrefresh, List.append_nil]
    rw [stampedTree, if_pos hdry, hversionTree, hsynced]
    exact (List.foldl_append ..).symm

section

variable (settings : Settings) (client : Client) (policy : Confirmation.Policy)
  (options : Options) (tree : Tree)

/-- A run that asks nothing. -/
theorem gated_of_silent {failure : Failure} {events : List Event} (hqueries : queriesOf events = [])
    (hdecisions : decisionsOf events = []) :
    Gated settings client policy options tree (.error failure) ⟨events, [], tree⟩ := by
  refine ⟨fun _ _ => Or.inl ⟨hqueries, rfl⟩, ?_, ?_, ?_⟩
  · intro _
    simp only [queries_eq, decisions_eq, hqueries, hdecisions]
    exact ⟨trivial, by simp, by simp, ⟨""⟩, rfl⟩
  · intro root _ _ h
    simp [queries_eq, hqueries, Client.replay] at h
  · rintro outcome ⟨⟩

/-- A run that ends with the question. -/
theorem gated_of_refused {root : Path} {failure : Failure}
    (hlocate : Checkout.locate tree settings.candidates (some settings.cloneUrl) = .ok root)
    (hinspect : (inspect client policy options root (beginning tree)).1 = .error failure) :
    Gated settings client policy options tree (.error failure)
      (inspect client policy options root (beginning tree)).2 := by
  obtain ⟨new, hevents, hqueries, htree, -, hdry, -⟩ :=
    inspect_spec client policy options root (beginning tree)
  have hasks : options.dryRun = false := by
    rw [Bool.eq_false_iff]
    intro hdryRun
    rw [(hdry hdryRun).2] at hinspect
    cases hinspect
  have hinspection : inspection options = [.modifications] := by
    rw [inspection, if_neg (by simp [hasks])]
  rw [hinspection] at hqueries htree
  have hall : (inspect client policy options root (beginning tree)).2.queries =
      [.modifications] := by
    rw [queries_eq, hevents, queriesOf_append, (beginning_eq tree).1, hqueries]
    rfl
  refine ⟨fun _ _ => Or.inr ⟨root, hall, htree⟩, ?_, ?_, ?_⟩
  · intro hdryRun
    rw [hasks] at hdryRun
    cases hdryRun
  · intro root' hlocate' _ h
    obtain rfl := Except.ok.inj (hlocate.symm.trans hlocate')
    simp only [hall] at h
    rcases h with h | h
    · simp at h
    · exact absurd htree h
  · rintro outcome ⟨⟩

variable {settings client policy options tree} {transformer : Transformer} {root : Path}
  {modified : Bool} {outcome : Outcome} {trace : Trace}

/-- The questions of a run that goes on to the end, before and after it refreshes. -/
theorem queries_of_complete
    (hcomplete : complete settings client options transformer root modified
      (inspect client policy options root (beginning tree)).2 = (outcome, trace)) :
    ∃ before after found,
      trace.events = before ++ ⟨.enter .refresh, client.replay root (inspection options) tree⟩ ::
        after ∧
      (∀ event ∈ before, event.tree = tree ∨
        event.tree = client.replay root (inspection options) tree) ∧
      queriesOf before = inspection options ∧
      queriesOf after = refreshment options ++
        Client.versionQueries (client.label root found).1 ∧
      ⟨.query .label root, found⟩ ∈ after ∧ decisionsOf after = [] ∧
      (options.dryRun = true → decisionsOf before = [] ∧
        trace.tree = client.replay root (queriesOf after) tree) ∧
      (options.dryRun = false → (client.modifications root tree).1 = .ok true →
        decisionsOf before = [root] ∧
        ∀ answer, (inspect client policy options root (beginning tree)).1 = .ok answer →
          policy.decide root = true) := by
  obtain ⟨new, hevents, hqueries, htree, hfound, hdry, hagreed⟩ :=
    inspect_spec client policy options root (beginning tree)
  obtain ⟨after, found, hafter, hundecided, hlabel, hqueriesAfter, htreeAfter⟩ :=
    complete_queries settings client options transformer root modified
      (inspect client policy options root (beginning tree)).2
  obtain ⟨hsilent, hundecidedBefore, hfoundBefore⟩ := beginning_eq tree
  rw [hcomplete] at hafter htreeAfter
  refine ⟨(beginning tree).events ++ new, after, found, ?_, ?_, ?_, hqueriesAfter, hlabel,
    hundecided, fun hdryRun => ⟨?_, ?_⟩, fun hnotDry hmodified => ?_⟩
  · rw [hafter, hevents, htree]
    rfl
  · intro event hevent
    rcases List.mem_append.1 hevent with hevent | hevent
    · exact Or.inl (hfoundBefore event hevent)
    · exact hfound event hevent
  · rw [queriesOf_append, hsilent, hqueries, List.nil_append]
  · rw [decisionsOf_append, hundecidedBefore, (hdry hdryRun).1, List.append_nil]
  · have hinspection : inspection options = [] := if_pos hdryRun
    rw [hinspection] at htree
    rw [htreeAfter hdryRun, htree]
    rfl
  · obtain ⟨hdecision, hpolicy⟩ := hagreed hnotDry hmodified
    rw [decisionsOf_append, hundecidedBefore, hdecision]
    exact ⟨rfl, hpolicy⟩

/-- The questions about the version are no others. -/
theorem notMem_versionQueries {answer : Except VersionControl.Failure String} {query : Query}
    (hlabel : query ≠ .label) (hrevision : query ≠ .revision) :
    query ∉ Client.versionQueries answer := by
  cases answer <;> simp [Client.versionQueries, hlabel, hrevision]

/-- A run that goes on to the end. -/
theorem gated_of_complete
    (hlocate : Checkout.locate tree settings.candidates (some settings.cloneUrl) = .ok root)
    (hinspect : (inspect client policy options root (beginning tree)).1 = .ok modified)
    (hcomplete : complete settings client options transformer root modified
      (inspect client policy options root (beginning tree)).2 = (outcome, trace)) :
    Gated settings client policy options tree (.ok outcome) trace := by
  obtain ⟨before, after, found, hevents, hfound, hbefore, hafter, hlabel, hundecided, hdry,
    hagreed⟩ := queries_of_complete hcomplete
  have hall : trace.queries = inspection options ++ queriesOf after := by
    rw [queries_eq, hevents, queriesOf_append, hbefore]
    rfl
  have hdecided : trace.decisions = decisionsOf before := by
    rw [decisions_eq, hevents, decisionsOf_append, decisionsOf_enter, hundecided, List.append_nil]
  have hroot : outcome.root = root := by
    have hfirst := (complete_outcome settings client options transformer root modified
      (inspect client policy options root (beginning tree)).2).1
    rwa [hcomplete] at hfirst
  have hversion : options.dryRun = true →
      trace.queries = Client.versionQueries (client.label root found).1 ∧
        trace.tree = client.replay root trace.queries tree := by
    intro hdryRun
    have hinspection : inspection options = [] := if_pos hdryRun
    have hrefreshment : refreshment options = [] := if_pos (by simp [hdryRun])
    rw [hall, hinspection, List.nil_append, (hdry hdryRun).2]
    exact ⟨by rw [hafter, hrefreshment, List.nil_append], rfl⟩
  refine ⟨?_, ?_, ?_, ?_⟩
  · rintro failure ⟨⟩
  · intro hdryRun
    obtain ⟨hqueries, htree⟩ := hversion hdryRun
    refine ⟨hdecided.trans (hdry hdryRun).1, ?_, ?_, root, htree⟩
    · rw [hqueries]
      exact notMem_versionQueries (by simp) (by simp)
    · rw [hqueries]
      exact notMem_versionQueries (by simp) (by simp)
  · intro root' hlocate' hmodified h
    obtain rfl := Except.ok.inj (hlocate.symm.trans hlocate')
    by_cases hdryRun : options.dryRun = true
    -- a dry run does neither
    · obtain ⟨hqueries, htree⟩ := hversion hdryRun
      rcases h with h | h
      · rw [hqueries] at h
        exact absurd h (notMem_versionQueries (by simp) (by simp))
      · exact absurd htree h
    · obtain ⟨hdecision, hpolicy⟩ := hagreed (by simpa using hdryRun) hmodified
      exact ⟨hpolicy modified hinspect, hdecided.trans hdecision⟩
  · rintro outcome ⟨⟩
    rw [hroot]
    refine ⟨before, after, found, hevents, hfound, hundecided, hlabel, ?_⟩
    rw [hall, hafter, List.append_assoc]

end

/-- Comparing asks nothing and leaves the tree alone. -/
theorem trace_of_compare {around : Cli.Surroundings} {request : Cli.Request} {tree : Tree}
    {answer : Cli.Answer} (haction : request.action = .diff)
    (h : request.run around tree = .ok answer) : answer.trace = .start tree := by
  unfold Cli.Request.run at h
  cases hsettings : request.settings around tree with
  | error failure =>
      rw [hsettings] at h
      cases h
  | ok settings =>
      rw [hsettings] at h
      simp only [haction, bind, Except.bind] at h
      unfold Cli.compare at h
      cases htransformer : Transformer.ofSettings settings with
      | error error =>
          rw [htransformer] at h
          cases h
      | ok transformer =>
          cases hlocate : Checkout.locate tree settings.candidates (some settings.cloneUrl) with
          | error error =>
              rw [htransformer, hlocate] at h
              cases h
          | ok root =>
              rw [htransformer, hlocate] at h
              cases h
              rfl

/-- A run asks before it acts: if it fails, does nothing but show what it would do, or is not
allowed to go on, the tree is left to the client, which means as it was for a client that keeps it.
Comparing leaves the tree alone. -/
theorem run_gated (settings : Settings) (client : Client) (policy : Confirmation.Policy)
    (options : Options) (tree : Tree) :
    Gated settings client policy options tree (run settings client policy options tree).1
        (run settings client policy options tree).2 ∧
      (client.KeepsTree → ∀ root queries, client.replay root queries tree = tree) ∧
      ∀ around arguments request, Cli.Request.ofArguments arguments = .ok request →
        request.action = .diff → (Cli.run around arguments tree).trace = .start tree := by
  refine ⟨?_, fun hkeeps root queries => Client.replay_of_keepsTree hkeeps root queries tree,
    fun around arguments request hrequest haction => ?_⟩
  · rcases run_cases settings client policy options tree with
      ⟨failure, events, hrun, hqueries, hdecisions⟩ |
      ⟨transformer, root, -, hlocate, ⟨failure, hinspect, hrun⟩ | ⟨modified, hinspect, hrun⟩⟩
    · rw [hrun]
      exact gated_of_silent settings client policy options tree hqueries hdecisions
    · rw [hrun]
      exact gated_of_refused settings client policy options tree hlocate hinspect
    · rw [hrun]
      exact gated_of_complete hlocate hinspect rfl
  · unfold Cli.run
    rw [hrequest]
    simp only
    cases hanswer : request.run around tree with
    | error failure => rfl
    | ok answer => exact trace_of_compare haction hanswer

end Vendoring.Pipeline
