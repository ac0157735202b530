import Vendoring.Proofs.Pipeline.Trace
import Vendoring.Proofs.Sync.Locality
import Vendoring.Proofs.Update.Trail

/-!
# What a run may touch

A step is confined to a root if all that it changes lies strictly beneath the root, apart from
missing directories on the way to it. Every step of synchronising a table is confined, whatever the
root, the table and the tree are (`isChain_syncAllTrail`), since destinations stay inside. The
target of the stamp need not stay inside: the run is confined exactly if the target lies beneath the
root or stamping changes nothing (`run_confined_iff`).
-/

namespace Vendoring

/-- Whether a place lies strictly beneath another one. -/
def Beneath (above place : List Name) : Prop :=
  above <+: place ∧ place ≠ above

/-- Behind a place with more names there is a place strictly beneath it. -/
theorem beneath_append {above below : List Name} (h : below ≠ []) :
    Beneath above (above ++ below) :=
  ⟨List.prefix_append _ _, by simpa using h⟩

/-- What stands beside a place strictly beneath another one is strictly beneath that, too. -/
theorem Beneath.beside {above place other : List Name} (h : Beneath above place)
    (hother : other ≠ []) (hbeside : other.dropLast = place.dropLast) : Beneath above other := by
  obtain ⟨⟨below, rfl⟩, hne⟩ := h
  have hbelow : below ≠ [] := fun hnil => hne (by simp [hnil])
  rw [List.dropLast_append_of_ne_nil hbelow] at hbeside
  rw [← List.dropLast_append_getLast hother, hbeside, List.append_assoc]
  exact beneath_append (by simp)

namespace Tree

/-- What changes from the first tree to the second one lies strictly beneath a root, or is a
directory made on the way to it. -/
structure Confined (root : Path) (s t : Tree) : Prop where
  here : t.here = s.here
  kind : ∀ place, t.kind place = s.kind place ∨ Beneath (s.placeOf root) place ∨
    s.OnTheWay root place ∧ s.kind place = .missing ∧ t.kind place = .directory

namespace Confined

variable {root : Path} {s t u : Tree}

/-- A tree that does not change is confined to any root. -/
theorem refl (root : Path) (tree : Tree) : tree.Confined root tree :=
  ⟨rfl, fun _ => Or.inl rfl⟩

/-- Changes that are confined to a root are so one after the other. -/
theorem trans (h : Confined root s t) (h' : Confined root t u) : Confined root s u := by
  refine ⟨h'.here.trans h.here, ?_⟩
  intro place
  have hroot : t.placeOf root = s.placeOf root := placeOf_congr h.here root
  have hway : t.OnTheWay root place → s.OnTheWay root place := by
    unfold OnTheWay
    rw [start_congr h.here]
    exact id
  rcases h.kind place with hst | hbeneath | ⟨honway, hs, ht⟩
  · rcases h'.kind place with htu | hbeneath | ⟨honway, ht, hu⟩
    · exact Or.inl (htu.trans hst)
    · exact Or.inr (Or.inl (hroot ▸ hbeneath))
    · exact Or.inr (Or.inr ⟨hway honway, hst.symm.trans ht, hu⟩)
  · exact Or.inr (Or.inl hbeneath)
  · rcases h'.kind place with htu | hbeneath | ⟨-, ht', -⟩
    · exact Or.inr (Or.inr ⟨honway, hs, htu.trans ht⟩)
    · exact Or.inr (Or.inl (hroot ▸ hbeneath))
    · rw [ht] at ht'
      cases ht'

/-- Steps that are confined are confined all together. -/
theorem of_isChain {trail : List Tree} (h : List.IsChain (Confined root) (s :: trail)) :
    Confined root s (trail.getLastD s) := by
  induction trail generalizing s with
  | nil => exact refl root s
  | cons t trail ih =>
      rw [List.isChain_cons_cons] at h
      rw [List.getLastD_cons]
      exact h.1.trans (ih h.2)

end Confined

/-! ## Destinations -/

/-- A path that stays inside asks for a place beneath the root, if it names anything. -/
theorem beneath_join (tree : Tree) (root : Path) {d : Path} (hd : d.isAbsolute = false)
    (hplain : Plain d.names) (hne : d.names ≠ []) :
    Beneath (tree.placeOf root) (tree.placeOf (root.join d)) := by
  rw [placeOf_join tree root hd hplain]
  exact beneath_append hne

/-- So does the path of its staging file. -/
theorem beneath_staging_join (tree : Tree) (root : Path) {d : Path} (hd : d.isAbsolute = false)
    (hplain : Plain d.names) (hne : d.names ≠ []) :
    Beneath (tree.placeOf root) (tree.placeOf (root.join d).staging) := by
  obtain ⟨front, last, hstaging, -⟩ := Path.names_staging hne
  rw [placeOf_staging_join tree root hd hplain hne, hstaging]
  exact beneath_append (by simp)

/-- Directories on the way to the parent of such a path lie beneath the root or on the way to it. -/
theorem beneath_or_onTheWay (tree : Tree) (root : Path) {d above : Path}
    (hd : d.isAbsolute = false) (hplain : Plain d.names)
    (hparent : (root.join d).parent? = some above) {place : List Name}
    (h : tree.OnTheWay above place) :
    Beneath (tree.placeOf root) place ∨ tree.OnTheWay root place := by
  obtain ⟨front, hfront, hbelow, rfl⟩ := onTheWay_parent hparent h
  have hstart : tree.start (root.join d) = tree.start root :=
    start_of_isAbsolute (Path.isAbsolute_join root hd)
  rw [hstart]
  rw [Path.names_join root hd] at hbelow
  rcases List.prefix_or_prefix_of_prefix hbelow (List.prefix_append root.names d.names) with
    habove | ⟨rest, rfl⟩
  · exact Or.inr ⟨front, hfront, habove, rfl⟩
  · by_cases hrest : rest = []
    · subst hrest
      exact Or.inr ⟨root.names, by simpa using hfront, List.prefix_rfl, by simp⟩
    · have hrestPlain : Plain rest := fun name hname =>
        hplain name (((List.prefix_append_right_inj _).1 hbelow).subset hname)
      left
      rw [List.foldl_append, foldl_climb hrestPlain]
      exact beneath_append hrest

/-- A step that touches a path which stays inside is confined. -/
theorem Touches.confined {s t : Tree} {root d : Path} (hd : d.isAbsolute = false)
    (hplain : Plain d.names) (hne : d.names ≠ []) (h : s.Touches t (root.join d)) :
    s.Confined root t := by
  refine ⟨h.here, ?_⟩
  intro place
  rcases h.kind place with heq | rfl | rfl | ⟨⟨above, hparent, hway⟩, hmissing, hdirectory⟩
  · exact Or.inl heq
  · exact Or.inr (Or.inl (beneath_join s root hd hplain hne))
  · exact Or.inr (Or.inl (beneath_staging_join s root hd hplain hne))
  · rcases beneath_or_onTheWay s root hd hplain hparent hway with hbeneath | honway
    · exact Or.inr (Or.inl hbeneath)
    · exact Or.inr (Or.inr ⟨honway, hmissing, hdirectory⟩)

/-! ## Files that are replaced -/

section

variable {tree staged moved : Tree} {root p : Path} {old content : ByteArray}

/-- A file that is replaced gets other bytes. -/
theorem Replaced.kind_ne (h : tree.Replaced staged moved p old content) :
    moved.kind (tree.placeOf p) ≠ tree.kind (tree.placeOf p) := by
  rw [h.file, h.moved.2.1]
  intro heq
  exact h.differs (NodeKind.file.inj heq)

/-- So it lies beneath the root if that is confined. -/
theorem Replaced.beneath_of_confined (h : tree.Replaced staged moved p old content)
    (hconfined : tree.Confined root moved) : Beneath (tree.placeOf root) (tree.placeOf p) := by
  rcases hconfined.kind (tree.placeOf p) with heq | hbeneath | ⟨-, hmissing, -⟩
  · exact absurd heq h.kind_ne
  · exact hbeneath
  · rw [h.file] at hmissing
    cases hmissing

/-- Both steps of replacing a file beneath the root are confined, since its staging file lies beside
it. -/
theorem Replaced.confined (h : tree.Replaced staged moved p old content)
    (hbeneath : Beneath (tree.placeOf root) (tree.placeOf p)) :
    tree.Confined root staged ∧ staged.Confined root moved := by
  obtain ⟨hhere, hstaged⟩ := h.staged
  obtain ⟨hhere', -, -, hothers⟩ := h.moved
  have hbeneath' : Beneath (tree.placeOf root) (tree.placeOf p.staging) :=
    hbeneath.beside h.ends.1 h.beside
  refine ⟨⟨hhere, fun place => ?_⟩, ⟨hhere'.trans hhere.symm, fun place => ?_⟩⟩
  · by_cases hplace : place = tree.placeOf p.staging
    · exact Or.inr (Or.inl (hplace ▸ hbeneath'))
    · exact Or.inl (hstaged place hplace)
  · rw [placeOf_congr hhere]
    by_cases hplace : place = tree.placeOf p.staging
    · exact Or.inr (Or.inl (hplace ▸ hbeneath'))
    by_cases hplace' : place = tree.placeOf p
    · exact Or.inr (Or.inl (hplace' ▸ hbeneath))
    · left
      show moved.kind place = staged.kind place
      rw [hothers place hplace' hplace, hstaged place hplace]

end

end Tree

namespace Sync.Job

/-- The trees that synchronising a mapping leaves behind one after the other. -/
def syncOneTrail (job : Job) (m : Mapping) (tree : Tree) : List Tree :=
  match tree.readText? (job.source m) with
  | .ok (some text) =>
    tree.updateTrail (job.target m) (job.transformer.transform text m.source) job.dryRun
  | _ => []

/-- The trees that synchronising mappings leaves behind one after the other. -/
def syncAllTrail (job : Job) : List Mapping → Tree → List Tree
  | [], _ => []
  | m :: ms, tree => job.syncOneTrail m tree ++ job.syncAllTrail ms (job.syncOne m tree).2

/-- The trail of a mapping ends with the tree that synchronising it leaves. -/
theorem getLastD_syncOneTrail (job : Job) (m : Mapping) (tree : Tree) :
    (job.syncOneTrail m tree).getLastD tree = (job.syncOne m tree).2 := by
  unfold syncOneTrail syncOne
  simp only
  cases tree.readText? (job.source m) with
  | error fault => rfl
  | ok found =>
      cases found with
      | none => rfl
      | some text =>
          simp only [Tree.getLastD_updateTrail]
          split <;> rename_i hupdate <;> rw [hupdate]

/-- The trail ends with the tree that synchronising leaves behind. -/
theorem getLastD_syncAllTrail (job : Job) (mappings : List Mapping) (tree : Tree) :
    (job.syncAllTrail mappings tree).getLastD tree = (job.syncAll mappings tree).2 := by
  induction mappings generalizing tree with
  | nil => rfl
  | cons m mappings ih =>
      rw [syncAllTrail, getLastD_append, getLastD_syncOneTrail, ih, syncAll_cons]

/-- Every step of synchronising mappings of a table is confined to the embedded root. -/
theorem isChain_syncAllTrail (job : Job) {mappings : List Mapping}
    (h : ∀ m ∈ mappings, m.destination.isAbsolute = false ∧ Tree.Plain m.destination.names ∧
      m.destination.names ≠ []) (tree : Tree) :
    List.IsChain (Tree.Confined job.embeddedRoot) (tree :: job.syncAllTrail mappings tree) := by
  induction mappings generalizing tree with
  | nil => simp [syncAllTrail]
  | cons m mappings ih =>
      rw [syncAllTrail, isChain_append, getLastD_syncOneTrail]
      refine ⟨?_, ih (fun n hn => h n (by simp [hn])) _⟩
      obtain ⟨hrelative, hplain, hne⟩ := h m (by simp)
      have hstep : ∀ s t : Tree, s.Touches t (job.target m) → s.Confined job.embeddedRoot t :=
        fun s t => Tree.Touches.confined hrelative hplain hne
      unfold syncOneTrail
      split
      · exact (Tree.isChain_updateTrail tree _ _ _).imp hstep
      · simp

end Sync.Job

/-! ## The stamp -/

namespace Stamp

/-- The trees that stamping a file leaves behind one after the other. -/
def trail (tree : Tree) (target : Path) (beginning line : String) : List Tree :=
  match target? tree target with
  | .ok (some text) =>
    if isStamped beginning.toList line.toList text.toList then []
    else
      let fresh := String.ofList (stamped beginning.toList line.toList text.toList)
      tree.updateTrail target fresh false
  | _ => []

/-- The trail ends with the tree that stamping leaves behind. -/
theorem getLastD_trail (tree : Tree) (target : Path) (beginning line : String) :
    (trail tree target beginning line).getLastD tree = (apply tree target beginning line).2 := by
  unfold trail apply
  cases target? tree target with
  | error error => rfl
  | ok found =>
      cases found with
      | none => rfl
      | some text =>
          simp only
          split
          · rfl
          · rw [Tree.getLastD_updateTrail]
            split <;> rename_i hupdate <;> rw [hupdate]

/-- Stamping changes nothing, or it replaces the target, which could be read. -/
theorem trail_cases (tree : Tree) (target : Path) (beginning line : String) :
    (∀ left ∈ trail tree target beginning line, left = tree) ∨
      ∃ old content staged moved, tree.read target = .ok old ∧
        trail tree target beginning line = [tree, staged, moved] ∧
        tree.Replaced staged moved target old content := by
  unfold trail
  split
  · rename_i text htarget
    split
    · exact Or.inl (by simp)
    · obtain ⟨old, hread⟩ : ∃ old, tree.read target = .ok old := by
        unfold target? at htarget
        split at htarget
        · cases htarget
        · cases htarget
        · rename_i old hread
          exact ⟨old, hread⟩
      rcases Tree.updateTrail_of_read hread
          (String.ofList (stamped beginning.toList line.toList text.toList)) with
        hsame | ⟨staged, moved, htrail, hreplaced⟩
      · exact Or.inl hsame
      · exact Or.inr ⟨old, _, staged, moved, hread, htrail, hreplaced⟩
  · exact Or.inl (by simp)

/-- Stamping is confined to a root exactly if the target lies beneath it or nothing changes. -/
theorem isChain_trail_iff (root : Path) (tree : Tree) (target : Path) (beginning line : String) :
    List.IsChain (Tree.Confined root) (tree :: trail tree target beginning line) ↔
      Beneath (tree.placeOf root) (tree.placeOf target) ∨
        ((apply tree target beginning line).2).Alike tree := by
  rw [← getLastD_trail]
  rcases trail_cases tree target beginning line with
    hsame | ⟨old, content, staged, moved, -, htrail, hreplaced⟩
  · have hlast : (trail tree target beginning line).getLastD tree = tree :=
      (List.mem_cons.1 List.getLastD_mem_cons).elim id (hsame _)
    rw [List.eq_replicate_of_mem hsame, ← List.replicate_succ]
    refine iff_of_true (List.isChain_replicate_of_rel _ (Tree.Confined.refl root tree)) (Or.inr ?_)
    rw [← List.eq_replicate_of_mem hsame, hlast]
    exact Tree.Alike.refl tree
  rw [htrail]
  show List.IsChain _ [tree, tree, staged, moved] ↔ _ ∨ moved.Alike tree
  simp only [List.isChain_cons_cons, List.isChain_singleton, and_true]
  constructor
  · rintro ⟨-, hstage, hmove⟩
    exact Or.inl (hreplaced.beneath_of_confined (hstage.trans hmove))
  · rintro (hbeneath | halike)
    · exact ⟨Tree.Confined.refl root tree, hreplaced.confined hbeneath⟩
    · exact absurd (halike.kind (tree.placeOf target)) hreplaced.kind_ne

/-- Stamping a file below the root is confined, whether or not it names anything. -/
theorem isChain_trail_of_staysInside {root q : Path} (hq : q.staysInside = true) (tree : Tree)
    (beginning line : String) :
    List.IsChain (Tree.Confined root) (tree :: trail tree (root.join q) beginning line) := by
  obtain ⟨hrelative, hup⟩ := Path.staysInside_iff.1 hq
  rw [isChain_trail_iff]
  rcases trail_cases tree (root.join q) beginning line with
    hsame | ⟨old, content, staged, moved, hread, -, -⟩
  · right
    rw [← getLastD_trail, (List.mem_cons.1 List.getLastD_mem_cons).elim id (hsame _)]
    exact Tree.Alike.refl tree
  · left
    have hne := Path.names_ne_nil_of_join hrelative (Tree.read_eq_ok hread).2.1
    exact Tree.beneath_join tree root hrelative (Tree.plain_names_iff.2 hup) hne

end Stamp

/-! ## The whole run -/

namespace Pipeline

open VersionControl (Client)

section

variable (settings : Settings) (client : Client) (policy : Confirmation.Policy)
  (options : Options) (tree : Tree)

/-- The trees that a run leaves behind one after the other while it synchronises, for a client that
keeps the tree. -/
def syncTrail : List Tree :=
  match setUp settings, (run settings client policy options tree).1 with
  | .ok transformer, .ok outcome =>
    (job settings transformer options outcome.root).syncAllTrail settings.mappings.toList tree
  | _, _ => []

/-- The trees that a run leaves behind one after the other while it stamps, for a client that keeps
the tree. -/
def stampTrail : List Tree :=
  match (run settings client policy options tree).1 with
  | .ok outcome =>
    if options.dryRun then []
    else Stamp.trail ((syncTrail settings client policy options tree).getLastD tree)
      settings.stampTargetPath settings.stampPrefix
      (Stamp.line settings.stampPrefix outcome.version)
  | .error _ => []

/-- The trees that a run leaves behind one after the other, for a client that keeps the tree. -/
def trail : List Tree :=
  syncTrail settings client policy options tree ++ stampTrail settings client policy options tree

/-- The trails of a run by a client that keeps the tree: both are empty, or they are those of
synchronising the table and of stamping the version. -/
theorem trail_cases (hkeeps : client.KeepsTree) :
    (syncTrail settings client policy options tree = [] ∧
        stampTrail settings client policy options tree = [] ∧
        (run settings client policy options tree).2.tree = tree) ∨
      ∃ (job : Sync.Job) (version : String), job.embeddedRoot = settings.embeddedRoot ∧
        syncTrail settings client policy options tree =
          job.syncAllTrail settings.mappings.toList tree ∧
        stampTrail settings client policy options tree =
          (if options.dryRun then []
            else Stamp.trail (job.syncAll settings.mappings.toList tree).2 settings.stampTargetPath
              settings.stampPrefix (Stamp.line settings.stampPrefix version)) ∧
        (run settings client policy options tree).2.tree =
          if options.dryRun then (job.syncAll settings.mappings.toList tree).2
          else (Stamp.apply (job.syncAll settings.mappings.toList tree).2 settings.stampTargetPath
            settings.stampPrefix (Stamp.line settings.stampPrefix version)).2 := by
  rcases run_cases_of_keepsTree hkeeps settings policy options tree with
    ⟨failure, trace, hrun, htree⟩ |
    ⟨transformer, outcome, trace, hrun, hsetUp, -, -, -, hleft⟩
  · left
    unfold stampTrail syncTrail
    rw [hrun]
    cases setUp settings <;> exact ⟨rfl, rfl, htree⟩
  · right
    have hsyncTrail : syncTrail settings client policy options tree =
        (job settings transformer options outcome.root).syncAllTrail settings.mappings.toList
          tree := by
      unfold syncTrail
      rw [hsetUp, hrun]
    refine ⟨job settings transformer options outcome.root, outcome.version, rfl, hsyncTrail, ?_, ?_⟩
    · unfold stampTrail
      rw [hrun]
      simp only [hsyncTrail, Sync.Job.getLastD_syncAllTrail]
    · rw [hrun]
      exact hleft

/-- Whatever the settings, the tree and the options are, a run that leaves the tree to itself is
confined to the embedded root, step by step, exactly if the target of the stamp lies strictly
beneath the root or stamping leaves everything as it was. So it is if the target stays inside, and
then the run as a whole is confined, too. -/
theorem run_confined_iff (hkeeps : client.KeepsTree) :
    (trail settings client policy options tree).getLastD tree =
        (run settings client policy options tree).2.tree ∧
      (List.IsChain (Tree.Confined settings.embeddedRoot)
          (tree :: trail settings client policy options tree) ↔
        Beneath (tree.placeOf settings.embeddedRoot) (tree.placeOf settings.stampTargetPath) ∨
          (run settings client policy options tree).2.tree.Alike
            ((syncTrail settings client policy options tree).getLastD tree)) ∧
      (settings.stampTarget.staysInside = true →
        List.IsChain (Tree.Confined settings.embeddedRoot)
            (tree :: trail settings client policy options tree) ∧
          tree.Confined settings.embeddedRoot (run settings client policy options tree).2.tree) := by
  rcases trail_cases settings client policy options tree hkeeps with
    ⟨hsync, hstamp, htree⟩ | ⟨job, version, hroot, hsync, hstamp, htree⟩
  · have hnothing : trail settings client policy options tree = [] := by
      rw [trail, hsync, hstamp, List.append_nil]
    rw [hnothing, hsync, htree]
    exact ⟨rfl, iff_of_true (by simp) (Or.inr (Tree.Alike.refl tree)),
      fun _ => ⟨by simp, Tree.Confined.refl _ tree⟩⟩
  have hsynced := job.getLastD_syncAllTrail settings.mappings.toList tree
  have hchain := job.isChain_syncAllTrail
    (fun m (hm : m ∈ settings.mappings.toList) => Sync.Job.sound_of_mem hm) tree
  rw [hroot] at hchain
  have hhere := (Tree.Confined.of_isChain hchain).here
  rw [hsynced] at hhere
  have hends : (trail settings client policy options tree).getLastD tree =
      (run settings client policy options tree).2.tree := by
    rw [trail, getLastD_append, hsync, hsynced, hstamp, htree]
    split
    · rfl
    · rw [Stamp.getLastD_trail]
  refine ⟨hends, ?_, ?_⟩
  · rw [trail, hsync, isChain_append, hsynced, hstamp, htree]
    by_cases hdry : options.dryRun = true
    · rw [if_pos hdry, if_pos hdry]
      exact iff_of_true ⟨hchain, by simp⟩ (Or.inr (Tree.Alike.refl _))
    · rw [if_neg hdry, if_neg hdry, Stamp.isChain_trail_iff, Tree.placeOf_congr hhere,
        Tree.placeOf_congr hhere]
      exact ⟨And.right, And.intro hchain⟩
  · intro hinside
    have hwhole : List.IsChain (Tree.Confined settings.embeddedRoot)
        (tree :: trail settings client policy options tree) := by
      rw [trail, hsync, isChain_append, hsynced, hstamp]
      refine ⟨hchain, ?_⟩
      split
      · simp
      · exact Stamp.isChain_trail_of_staysInside hinside _ _ _
    refine ⟨hwhole, ?_⟩
    rw [← hends]
    exact Tree.Confined.of_isChain hwhole

end

/-- Settings for the two headers, with the stamp in one of them. -/
def sampleSettings : Settings :=
  { toolDir := ⟨"host/tool"⟩
    hostDir := ⟨"host"⟩
    checkoutName := "up"
    candidates := [⟨"up"⟩]
    cloneUrl := ""
    sourceSubdir := ⟨"src"⟩
    embeddedRoot := ⟨"host/src"⟩
    entryPoint := ⟨"a.hpp"⟩
    stampTarget := ⟨"a.hpp"⟩
    stampPrefix := "// Synced from up "
    unknownVersion := "unknown"
    naming := {}
    substitutions := []
    mappings := Sync.Job.sampleTable }

/-- Every tree on the way of the run differs from the one before it only beneath the root. -/
theorem run_confined_sample :
    (VersionControl.Script.clean "v1").client.KeepsTree ∧
      sampleSettings.stampTarget.staysInside = true ∧
      List.IsChain (Tree.Confined ⟨"host/src"⟩) (Sync.Job.sampleTree ::
        trail sampleSettings (VersionControl.Script.clean "v1").client .proceed {}
          Sync.Job.sampleTree) := by
  have hkeeps := VersionControl.Script.client_keepsTree (VersionControl.Script.clean "v1")
  have hinside : sampleSettings.stampTarget.staysInside = true := by decide
  obtain ⟨-, -, hconfined⟩ := run_confined_iff sampleSettings
    (VersionControl.Script.clean "v1").client .proceed {} Sync.Job.sampleTree hkeeps
  exact ⟨hkeeps, hinside, (hconfined hinside).1⟩

end Pipeline

end Vendoring
