import Vendoring.Proofs.Pipeline.Trace
import Vendoring.Proofs.Settings.Built
import Vendoring.Proofs.Sync.Repetition

/-!
# Running twice

A run that completes leaves nothing to do: the same run on the tree it leaves behind completes, too,
and leaves every file and every directory as it is (`run_idempotent`). The stamp may sit in a file
that is synchronised, which then loses it and gets it again on the way. It is asked that the client
answers alike whenever the checkout is there, that what the run writes does not change its sources,
and that the digests tell the contents that are compared.
-/

namespace Vendoring

/-- The client keeps every tree and answers alike about a checkout whenever it is there. -/
structure VersionControl.Client.Steady (client : Client) (root : Path) : Prop where
  keepsTree : client.KeepsTree
  modifications : ∀ s t : Tree, s.isDirectory root = true → t.isDirectory root = true →
    (client.modifications root s).1 = (client.modifications root t).1
  label : ∀ s t : Tree, s.isDirectory root = true → t.isDirectory root = true →
    (client.label root s).1 = (client.label root t).1
  revision : ∀ s t : Tree, s.isDirectory root = true → t.isDirectory root = true →
    (client.revision root s).1 = (client.revision root t).1

/-- A steady client tells the same version. -/
theorem VersionControl.Client.Steady.version {client : Client} {root : Path}
    (h : client.Steady root) (unknown : String) {s t : Tree} (hs : s.isDirectory root = true)
    (ht : t.isDirectory root = true) :
    (client.version root unknown s).label = (client.version root unknown t).label := by
  have hlabel := h.label s t hs ht
  have hrevision := h.revision s t hs ht
  have hkeeps := h.keepsTree.label root
  unfold Client.version
  cases hls : client.label root s with
  | mk result left =>
      cases hlt : client.label root t with
      | mk result' left' =>
          have hleft : left = s := by
            have hsame := hkeeps s
            rwa [hls] at hsame
          have hleft' : left' = t := by
            have hsame := hkeeps t
            rwa [hlt] at hsame
          rw [hls, hlt] at hlabel
          obtain rfl : result = result' := hlabel
          subst hleft hleft'
          cases result with
          | ok label => rfl
          | error failure =>
              cases hrs : client.revision root left with
              | mk answer final =>
                  cases hrt : client.revision root left' with
                  | mk answer' final' =>
                      rw [hrs, hrt] at hrevision
                      obtain rfl : answer = answer' := hrevision
                      simp only [hrs, hrt]
                      cases answer <;> rfl

/-- Settings that were built, with no destination that has a component that ends like the name of a
staging file, with a target of the stamp that stays inside, and with a label of one line. -/
structure Settings.Orderly (settings : Settings) : Prop where
  built : settings.Built
  unstaged : ∀ m ∈ settings.mappings.toList, m.destination.isUnstaged = true
  inside : settings.stampTarget.staysInside = true
  label : Stamp.OneLine settings.naming.label.toList

/-- Stamps begin within one line. -/
theorem Settings.Orderly.stampPrefix {settings : Settings} (h : settings.Orderly) :
    Stamp.OneLine settings.stampPrefix.toList := by
  rw [h.built.anchored.stampPrefix]
  have hpieces : ∀ front label back : String,
      (front ++ label ++ back).toList = front.toList ++ label.toList ++ back.toList := by
    intro front label back
    rw [String.toList_append, String.toList_append]
  show Stamp.OneLine ("// Synced from " ++ settings.naming.label ++ " ").toList
  rw [hpieces]
  constructor
  · simp only [List.mem_append, not_or]
    exact ⟨⟨by decide, h.label.1⟩, by decide⟩
  · simp only [List.mem_append, not_or]
    exact ⟨⟨by decide, h.label.2⟩, by decide⟩

/-! ## Directories are kept -/

/-- Synchronising keeps directories. -/
theorem Sync.Job.directory_syncAll {job : Sync.Job} (hdry : job.dryRun = false)
    {mappings : List Mapping} (hplain : job.Plain mappings) {tree : Tree} {place : List Name}
    (h : tree.kind place = .directory) : (job.syncAll mappings tree).2.kind place = .directory := by
  induction mappings generalizing tree with
  | nil => exact h
  | cons m mappings ih =>
      rw [syncAll_cons]
      refine ih (fun n hn => hplain n (by simp [hn])) ?_
      obtain ⟨hm, hne⟩ := hplain m (by simp)
      rcases syncOne_tree hdry m tree with heq | ⟨text, heq⟩
      · rw [heq]
        exact h
      · rw [heq]
        exact ((tree.update_change hm hne text).2 place).of_directory h

/-- A path of a directory is one after synchronising. -/
theorem Sync.Job.isDirectory_syncAll {job : Sync.Job} (hdry : job.dryRun = false)
    {mappings : List Mapping} (hplain : job.Plain mappings) {tree : Tree} {p : Path}
    (h : tree.isDirectory p = true) : (job.syncAll mappings tree).2.isDirectory p = true :=
  Tree.isDirectory_of_directories (here_syncAll hdry _ tree).symm
    (fun _ hplace => directory_syncAll hdry hplain hplace) h

namespace Pipeline

open VersionControl (Client)

/-- Nothing that a run writes changes where the checkout is found or what reading a source of the
table returns, from the tree that the run finds to the one that it leaves behind. -/
structure Undisturbed (settings : Settings) (options : Options) (transformer : Transformer)
    (root : Path) (tree left : Tree) : Prop where
  located : Checkout.locate left settings.candidates (some settings.cloneUrl) =
    Checkout.locate tree settings.candidates (some settings.cloneUrl)
  during : (job settings transformer options root).Undisturbed settings.mappings.toList tree
  after : ∀ m ∈ settings.mappings.toList,
    left.readText? ((job settings transformer options root).source m) =
      tree.readText? ((job settings transformer options root).source m)

variable {settings : Settings} {client : Client} {policy : Confirmation.Policy}
  {options : Options} {tree : Tree} {outcome : Outcome} {trace : Trace}

/-- What a run of orderly settings synchronises and stamps is sheltered. -/
theorem sheltered_job (h : settings.Orderly) (transformer : Transformer) (options : Options)
    (root : Path) :
    (job settings transformer options root).Sheltered settings.mappings settings.stampTarget :=
  ⟨h.built.anchored.embeddedRoot, h.unstaged, h.inside⟩

/-- The destinations of orderly settings are written to without climbing. -/
theorem plain_job (h : settings.Orderly) (transformer : Transformer) (options : Options)
    (root : Path) : (job settings transformer options root).Plain settings.mappings.toList :=
  Sync.Job.plain_of_root (sheltered_job h transformer options root).root _

/-- A run that ends well has completed, with the transformer of its settings. -/
theorem completed_of_run (hkeeps : client.KeepsTree)
    (h : run settings client policy options tree = (.ok outcome, trace)) :
    ∃ transformer, Completed settings client policy options transformer tree outcome trace.tree := by
  rcases run_cases_of_keepsTree hkeeps settings policy options tree with
    ⟨failure, trace', hrun, -⟩ | ⟨transformer, outcome', trace', hrun, hcompleted⟩
  · rw [h] at hrun
    cases hrun
  · rw [h] at hrun
    obtain ⟨houtcome, rfl⟩ := Prod.mk.inj hrun
    obtain rfl := Except.ok.inj houtcome
    exact ⟨transformer, hcompleted⟩

/-- A run that completes leaves nothing to do. Repeated on the tree that it leaves behind it
completes again, and every file and every directory is left as it was. -/
theorem run_idempotent (hsettings : settings.Orderly) (hdry : options.dryRun = false)
    (hclient : client.Steady outcome.root)
    (hrun : run settings client policy options tree = (.ok outcome, trace))
    (hversion : Stamp.OneLine outcome.version.toList)
    (hundisturbed : ∀ transformer, setUp settings = .ok transformer →
      Undisturbed settings options transformer outcome.root tree trace.tree)
    (hdiscerning : ∀ transformer, setUp settings = .ok transformer →
      (job settings transformer options outcome.root).Discerning settings.mappings.toList tree) :
    ∃ outcome', (run settings client policy options trace.tree).1 = .ok outcome' ∧
      (run settings client policy options trace.tree).2.tree.Alike trace.tree := by
  obtain ⟨transformer, hsetUp, hlocate, ⟨modified, hinspect⟩, hlabel, hleft⟩ :=
    completed_of_run hclient.keepsTree hrun
  obtain ⟨hlocated, hduring, hafter⟩ := hundisturbed transformer hsetUp
  rw [← hlocated] at hlocate
  -- the checkout is there in every tree on the way, and the client answers alike about it
  have hroot' : trace.tree.isDirectory outcome.root = true :=
    List.find?_some (Checkout.locate_eq_ok_iff.1 hlocate)
  have hroot : tree.isDirectory outcome.root = true :=
    List.find?_some (Checkout.locate_eq_ok_iff.1 (hlocated ▸ hlocate))
  have hinspect' : (inspect client policy options outcome.root (beginning trace.tree)).1 =
      .ok modified := by
    rw [← hinspect]
    exact inspect_congr policy options (hclient.modifications trace.tree tree hroot' hroot)
  obtain ⟨outcome', trace', hrun', -, hlocate', -, hlabel', hleft'⟩ :=
    exists_completed hclient.keepsTree hsetUp hlocate hinspect'
  obtain hsame : outcome.root = outcome'.root := Except.ok.inj (hlocate.symm.trans hlocate')
  rw [← hsame] at hlabel' hleft'
  have hversions : outcome'.version = outcome.version := by
    have hplain := plain_job hsettings transformer options outcome.root
    rw [hlabel, hlabel']
    exact hclient.version settings.unknownVersion
      (Sync.Job.isDirectory_syncAll hdry hplain hroot')
      (Sync.Job.isDirectory_syncAll hdry hplain hroot)
  rw [if_neg (by simp [hdry])] at hleft hleft'
  rw [hrun']
  refine ⟨outcome', rfl, ?_⟩
  show trace'.tree.Alike trace.tree
  rw [hleft', hversions]
  exact Sync.Job.stamped_again hdry (sheltered_job hsettings transformer options outcome.root)
    hsettings.stampPrefix hversion rfl hleft.symm hduring hafter (hdiscerning transformer hsetUp)

/-- A run disturbs nothing if the checkout is at the first of its places and the sources lie apart
from what is synchronised and from what is stamped. -/
theorem undisturbed_of_apart (hsettings : settings.Orderly) (hdry : options.dryRun = false)
    {transformer : Transformer} {root : Path} {synced : Tree} {line : String}
    (hfirst : settings.candidates.head? = some root) (hroot : tree.isDirectory root = true)
    (hsources : (job settings transformer options root).SourcesApart settings.mappings tree)
    (hstamp : ∀ m ∈ settings.mappings.toList,
      tree.placeOf ((job settings transformer options root).source m) ≠
          tree.placeOf settings.stampTargetPath ∧
        tree.placeOf ((job settings transformer options root).source m) ≠
          tree.placeOf settings.stampTargetPath.staging)
    (hsynced : ((job settings transformer options root).syncAll settings.mappings.toList tree).2 =
      synced) :
    Undisturbed settings options transformer root tree
      (Stamp.apply synced settings.stampTargetPath settings.stampPrefix line).2 := by
  have hplain := plain_job hsettings transformer options root
  have hhere : synced.here = tree.here := by
    rw [← hsynced]
    exact Sync.Job.here_syncAll hdry _ tree
  have hstampPlain : Tree.Plain settings.stampTargetPath.names :=
    (sheltered_job hsettings transformer options root).stamp.2
  obtain ⟨hhere', hdirectory, hfile⟩ :=
    Stamp.apply_keeps synced hstampPlain settings.stampPrefix line
  refine ⟨?_, hsources.undisturbed hdry hplain, ?_⟩
  · have hlocated : ∀ t : Tree, t.isDirectory root = true →
        Checkout.locate t settings.candidates (some settings.cloneUrl) = .ok root := by
      intro t ht
      obtain ⟨others, hcandidates⟩ := List.head?_eq_some_iff.1 hfirst
      rw [Checkout.locate_eq_ok_iff, hcandidates, List.find?_cons_of_pos ht]
    have hthere : synced.isDirectory root = true := by
      rw [← hsynced]
      exact Sync.Job.isDirectory_syncAll hdry hplain hroot
    rw [hlocated tree hroot]
    exact hlocated _ (Tree.isDirectory_of_directories hhere'.symm hdirectory hthere)
  · intro m hm
    obtain ⟨hnames, ⟨content, hread⟩, -⟩ := hsources m hm
    obtain ⟨htarget, hstaging⟩ := hstamp m hm
    rw [← Tree.placeOf_congr hhere, ← Tree.placeOf_congr hhere] at htarget hstaging
    have hsyncedRead := hsources.read hdry hplain (fun n hn => hn) hm hread
    rw [hsynced] at hsyncedRead
    have hleft : (Stamp.apply synced settings.stampTargetPath settings.stampPrefix line).2.read
        ((job settings transformer options root).source m) = .ok content := by
      refine Tree.read_mono hnames hhere' ?_ hsyncedRead
      rw [← Tree.placeOf_of_plain hnames]
      exact hfile _ htarget hstaging content
    unfold Tree.readText?
    rw [hread, hleft]

/-- One file, which is synchronised and stamped. -/
def soloManifest : Manifest :=
  { stampTarget := some ⟨"hymo_cli.cpp"⟩
    mappings := some [⟨⟨"main.cpp"⟩, ⟨"hymo_cli.cpp"⟩⟩] }

/-- The settings of a tool directory with this manifest. -/
def soloSettings : Settings :=
  { Settings.defaults ⟨"w/p/host/tool"⟩ ⟨"w/p/host"⟩ [⟨"w/meta-hymo"⟩, ⟨"meta-hymo"⟩] with
    stampTarget := ⟨"hymo_cli.cpp"⟩
    mappings := ⟨[⟨⟨"main.cpp"⟩, ⟨"hymo_cli.cpp"⟩⟩], by decide⟩ }

/-- The settings with one file are orderly. -/
theorem soloSettings_orderly : soloSettings.Orderly := by
  have hbuilt : (Settings.defaults ⟨"w/p/host/tool"⟩ ⟨"w/p/host"⟩
      [⟨"w/meta-hymo"⟩, ⟨"meta-hymo"⟩]).Built := by
    have hclimbs : .parent ∉ (⟨"w/p/host/tool"⟩ : Path).components := by decide
    exact .ofToolDir hclimbs Settings.ofToolDir_sample
  have happly : (Settings.defaults ⟨"w/p/host/tool"⟩ ⟨"w/p/host"⟩
      [⟨"w/meta-hymo"⟩, ⟨"meta-hymo"⟩]).apply soloManifest = (soloSettings, .ok ()) := rfl
  exact ⟨.apply hbuilt happly, by decide, by decide, by decide, by decide⟩

/-- A checkout with the file. -/
def soloTree : Tree :=
  { root := .directory [("w".toList, .directory [("meta-hymo".toList, .directory
      [("src".toList, .directory [("main.cpp".toList, .file "int main() {}".toUTF8)])])])]
    here := [] }

/-- The table with one file has one mapping. -/
theorem mem_solo {m : Mapping} (hm : m ∈ soloSettings.mappings.toList) :
    m = ⟨⟨"main.cpp"⟩, ⟨"hymo_cli.cpp"⟩⟩ := by
  simpa [soloSettings, MappingTable.toList] using hm

/-- The one source, and that of the one destination, which is stamped, too. -/
theorem solo_paths (transformer : Transformer) {m : Mapping}
    (hm : m ∈ soloSettings.mappings.toList) :
    (job soloSettings transformer {} ⟨"w/meta-hymo"⟩).source m = ⟨"w/meta-hymo/src/main.cpp"⟩ ∧
      (job soloSettings transformer {} ⟨"w/meta-hymo"⟩).target m =
        ⟨"w/p/host/src/hymo/hymo_cli.cpp"⟩ := by
  obtain rfl := mem_solo hm
  have hsource : ((⟨"w/meta-hymo"⟩ : Path).join ⟨"src"⟩).join ⟨"main.cpp"⟩ =
      ⟨"w/meta-hymo/src/main.cpp"⟩ := by decide
  have htarget : (⟨"w/p/host/src/hymo"⟩ : Path).join ⟨"hymo_cli.cpp"⟩ =
      ⟨"w/p/host/src/hymo/hymo_cli.cpp"⟩ := by decide
  exact ⟨hsource, htarget⟩

/-- The one source lies apart from the destination and its staging file. -/
theorem solo_apart (transformer : Transformer) :
    (job soloSettings transformer {} ⟨"w/meta-hymo"⟩).SourcesApart soloSettings.mappings
      soloTree := by
  intro m hm
  rw [(solo_paths transformer hm).1]
  refine ⟨Sync.Job.plain_of_components (by decide), ⟨"int main() {}".toUTF8, rfl⟩, ?_⟩
  intro n hn
  rw [Sync.Job.targetPlace, Sync.Job.stagingPlace, (solo_paths transformer hn).2]
  decide

/-- Nothing is there that the digests would have to tell from what is written. -/
theorem solo_discerning (transformer : Transformer) :
    (job soloSettings transformer {} ⟨"w/meta-hymo"⟩).Discerning soloSettings.mappings.toList
      soloTree := by
  intro done m hdone text _ old hold
  have hm : m ∈ soloSettings.mappings.toList := hdone.subset (by simp)
  have hnil : done = [] := by
    have hlength := hdone.length_le
    have hone : soloSettings.mappings.toList.length = 1 := rfl
    rw [hone, List.length_append, List.length_singleton] at hlength
    exact List.length_eq_zero_iff.1 (by omega)
  have hmissing : soloTree.read ⟨"w/p/host/src/hymo/hymo_cli.cpp"⟩ = .error .notFound := rfl
  subst hnil
  rw [(solo_paths transformer hm).2, Sync.Job.syncAll, hmissing] at hold
  cases hold

/-- The file is synchronised and stamped, and a second run leaves the tree as it is. -/
theorem run_idempotent_sample :
    ∃ outcome trace,
      run soloSettings (VersionControl.Script.clean "v1").client .proceed {} soloTree =
        (.ok outcome, trace) ∧
      soloSettings.Orderly ∧ Stamp.OneLine outcome.version.toList ∧
      ∃ outcome',
        (run soloSettings (VersionControl.Script.clean "v1").client .proceed {} trace.tree).1 =
          .ok outcome' ∧
        (run soloSettings (VersionControl.Script.clean "v1").client .proceed {}
          trace.tree).2.tree.Alike trace.tree := by
  have hsteady : ∀ root, (VersionControl.Script.clean "v1").client.Steady root := fun root =>
    ⟨VersionControl.Script.client_keepsTree _, fun _ _ _ _ => rfl, fun _ _ _ _ => rfl,
      fun _ _ _ _ => rfl⟩
  have hvalid : soloSettings.validate = .ok () := rfl
  obtain ⟨transformer, hsetUp⟩ := exists_setUp hvalid
  have hlocate : Checkout.locate soloTree soloSettings.candidates (some soloSettings.cloneUrl) =
      .ok ⟨"w/meta-hymo"⟩ := rfl
  obtain ⟨outcome, trace, hrun⟩ : ∃ outcome trace,
      run soloSettings (VersionControl.Script.clean "v1").client .proceed {} soloTree =
        (.ok outcome, trace) :=
    ⟨_, _, run_eq hsetUp hlocate⟩
  obtain ⟨found, hfound, hlocated, -, hlabel, hleft⟩ :=
    completed_of_run (hsteady outcome.root).keepsTree hrun
  obtain rfl : transformer = found := Except.ok.inj (hsetUp.symm.trans hfound)
  have hroot : outcome.root = ⟨"w/meta-hymo"⟩ := Except.ok.inj (hlocated.symm.trans hlocate)
  have hversion : Stamp.OneLine outcome.version.toList := by
    rw [hlabel]
    show Stamp.OneLine "v1".toList
    exact ⟨by decide, by decide⟩
  refine ⟨outcome, trace, hrun, soloSettings_orderly, hversion, ?_⟩
  refine run_idempotent soloSettings_orderly rfl (hsteady outcome.root) hrun hversion ?_ ?_
  · intro other hother
    obtain rfl : transformer = other := Except.ok.inj (hsetUp.symm.trans hother)
    rw [hleft]
    refine undisturbed_of_apart soloSettings_orderly rfl ?_ ?_ ?_ ?_ rfl <;> rw [hroot]
    · rfl
    · rfl
    · exact solo_apart transformer
    · intro m hm
      rw [(solo_paths transformer hm).1]
      decide
  · intro other hother
    rw [hroot]
    exact solo_discerning other

end Pipeline

end Vendoring
