import Vendoring.Proofs.Stamp.Apply
import Vendoring.Proofs.Sync.Locality

/-!
# Synchronising and stamping again

After a table is synchronised every mapping is idle: synchronising it again would do nothing
(`idle_syncAll`). A stamp put on one of the destinations changes this for that destination only.
Synchronised again, it may lose its stamp, which is then put on it again, so synchronising and
stamping a second time leaves everything as it was after the first time (`stamped_again`).
-/

namespace Vendoring

namespace Sync.Job

/-! ## Idle mappings -/

/-- Synchronising the mapping has nothing to do. -/
def Idle (job : Job) (m : Mapping) (tree : Tree) : Prop :=
  ∀ text, tree.readText? (job.source m) = .ok (some text) →
    tree.Settled (job.target m) (job.transformer.transform text m.source).toUTF8

/-- While the mappings are synchronised, the digests tell the old bytes of every destination from
the new ones. -/
def Discerning (job : Job) (mappings : List Mapping) (tree : Tree) : Prop :=
  ∀ done m, done ++ [m] <+: mappings → ∀ text,
    (job.syncAll done tree).2.readText? (job.source m) = .ok (some text) →
      (job.syncAll done tree).2.Discerned (job.target m)
        (job.transformer.transform text m.source).toUTF8

/-- A mapping that has nothing to do does nothing. -/
theorem syncOne_of_idle {job : Job} (hdry : job.dryRun = false) {m : Mapping} {tree : Tree}
    (hplain : Tree.Plain (job.target m).names) (hne : (job.target m).names ≠ [])
    (h : job.Idle m tree) : (job.syncOne m tree).2 = tree := by
  by_cases htext : ∃ text, tree.readText? (job.source m) = .ok (some text)
  · obtain ⟨text, htext⟩ := htext
    rw [syncOne_of_text hdry htext]
    exact Tree.update_of_settled hplain hne (h text htext)
  · exact (syncOne_of_lost fun text hread => htext ⟨text, hread⟩).2

/-- Idle mappings leave the tree as it is. -/
theorem syncAll_of_idle {job : Job} (hdry : job.dryRun = false) {mappings : List Mapping}
    {tree : Tree} (hplain : job.Plain mappings) (h : ∀ m ∈ mappings, job.Idle m tree) :
    (job.syncAll mappings tree).2 = tree := by
  induction mappings with
  | nil => rfl
  | cons m mappings ih =>
      obtain ⟨hm, hne⟩ := hplain m (by simp)
      rw [syncAll_cons, syncOne_of_idle hdry hm hne (h m (by simp))]
      exact ih (fun n hn => hplain n (by simp [hn])) fun n hn => h n (by simp [hn])

/-- Mappings that spare a settled file leave it settled. -/
theorem settled_syncAll {job : Job} (hdry : job.dryRun = false) {p : Path} {content : ByteArray}
    (hp : Tree.Plain p.names) {mappings : List Mapping} (hplain : job.Plain mappings)
    (hspares : ∀ n ∈ mappings, (job.target n).Spares p) {tree : Tree}
    (h : tree.Settled p content) : (job.syncAll mappings tree).2.Settled p content := by
  induction mappings generalizing tree with
  | nil => exact h
  | cons n mappings ih =>
      rw [syncAll_cons]
      refine ih (fun k hk => hplain k (by simp [hk])) (fun k hk => hspares k (by simp [hk])) ?_
      obtain ⟨hn, hne⟩ := hplain n (by simp)
      rcases syncOne_tree hdry n tree with heq | ⟨text, heq⟩
      · rw [heq]
        exact h
      · rw [heq]
        exact h.of_update hp hn hne (hspares n (by simp)) text

/-- Without the first mapping the sources are undisturbed from the tree that it leaves, and they
read the same there. -/
theorem Undisturbed.tail {job : Job} {m : Mapping} {mappings : List Mapping} {tree : Tree}
    (h : job.Undisturbed (m :: mappings) tree) :
    job.Undisturbed mappings (job.syncOne m tree).2 ∧
      ∀ n ∈ mappings, (job.syncOne m tree).2.readText? (job.source n) =
        tree.readText? (job.source n) := by
  have hread : ∀ done, done <+: mappings → ∀ n ∈ mappings,
      (job.syncAll done (job.syncOne m tree).2).2.readText? (job.source n) =
        tree.readText? (job.source n) := by
    intro done hdone n hn
    have hcons := h (m :: done) (by simpa using hdone) n (by simp [hn])
    rwa [syncAll_cons] at hcons
  refine ⟨fun done hdone n hn => ?_, hread [] List.nil_prefix⟩
  rw [hread done hdone n hn]
  exact (hread [] List.nil_prefix n hn).symm

/-- Without the first mapping the digests are discerning from the tree that it leaves. -/
theorem Discerning.tail {job : Job} {m : Mapping} {mappings : List Mapping} {tree : Tree}
    (h : job.Discerning (m :: mappings) tree) : job.Discerning mappings (job.syncOne m tree).2 := by
  intro done n hdone text htext
  have hcons := h (m :: done) n (by simpa using hdone) text
  rw [syncAll_cons] at hcons
  exact hcons htext

/-- After an undisturbed run every file is settled with the transformed text of its source. -/
theorem settled_of_mem {job : Job} (hdry : job.dryRun = false) {mappings : List Mapping}
    {tree : Tree} (hplain : job.Plain mappings)
    (hspares : mappings.Pairwise fun m n => (job.target n).Spares (job.target m))
    (hundisturbed : job.Undisturbed mappings tree) (hdiscerning : job.Discerning mappings tree) :
    ∀ m ∈ mappings, ∀ text, tree.readText? (job.source m) = .ok (some text) →
      (job.syncAll mappings tree).2.Settled (job.target m)
        (job.transformer.transform text m.source).toUTF8 := by
  induction mappings generalizing tree with
  | nil => exact fun m hm => absurd hm List.not_mem_nil
  | cons m mappings ih =>
      obtain ⟨hm, hne⟩ := hplain m (by simp)
      obtain ⟨hfirst, hrest⟩ := List.pairwise_cons.1 hspares
      obtain ⟨hundisturbed', hread⟩ := hundisturbed.tail
      have hplain' : job.Plain mappings := fun n hn => hplain n (by simp [hn])
      rw [syncAll_cons]
      intro n hn text htext
      rcases List.mem_cons.1 hn with rfl | hn
      -- the first mapping is settled at once and spared by the others
      · refine settled_syncAll hdry hm hplain' hfirst ?_
        rw [syncOne_of_text hdry htext]
        exact Tree.settled_update hm hne (hdiscerning [] n (by simp) text htext)
      · refine ih hplain' hrest hundisturbed' hdiscerning.tail n hn text ?_
        rw [hread n hn, htext]

/-! ## Tables with a stamp -/

/-- The root is reached without climbing, no destination of the table has a component that ends like
the name of a staging file, and the target of the stamp stays inside. -/
structure Sheltered (job : Job) (table : MappingTable) (stampTarget : Path) : Prop where
  root : .parent ∉ job.embeddedRoot.components
  unstaged : ∀ m ∈ table.toList, m.destination.isUnstaged = true
  inside : stampTarget.staysInside = true

section

variable {job : Job} {table : MappingTable} {stampTarget : Path}

/-- The target of the stamp lies below the root. -/
theorem Sheltered.stamp (h : job.Sheltered table stampTarget) :
    stampTarget.isAbsolute = false ∧
      Tree.Plain (job.embeddedRoot.join stampTarget).names := by
  obtain ⟨hrelative, hup⟩ := Path.staysInside_iff.1 h.inside
  refine ⟨hrelative, ?_⟩
  rw [Path.names_join _ hrelative]
  exact Tree.plain_append.2 ⟨plain_of_components h.root, Tree.plain_names_iff.2 hup⟩

/-- A staging file of a path that names something below the root does not stand at or above a
destination. -/
theorem Sheltered.staging (h : job.Sheltered table stampTarget) {d : Path}
    (hd : d.isAbsolute = false) (hne : d.names ≠ []) {m : Mapping} (hm : m ∈ table.toList) :
    (job.target m).isAbsolute = (job.embeddedRoot.join d).isAbsolute ∧
      ¬ (job.embeddedRoot.join d).staging.names <+: (job.target m).names := by
  obtain ⟨hrelative, -, -⟩ := sound_of_mem hm
  refine ⟨?_, Path.not_staging_above _ hd hne hrelative (h.unstaged m hm)⟩
  rw [Path.isAbsolute_join _ hd]
  exact Path.isAbsolute_join _ hrelative

/-- A path below the root spares every destination with another place. -/
theorem Sheltered.spares_of_ne (h : job.Sheltered table stampTarget) {d : Path}
    (hd : d.isAbsolute = false) (hne : d.names ≠ []) {m : Mapping} (hm : m ∈ table.toList)
    (hplace : (job.target m).names ≠ (job.embeddedRoot.join d).names) :
    (job.embeddedRoot.join d).Spares (job.target m) := by
  obtain ⟨habsolute, hstaging⟩ := h.staging hd hne hm
  exact ⟨habsolute.symm, hplace.symm, hstaging⟩

/-- Every destination spares the ones in front of it. -/
theorem Sheltered.spares (h : job.Sheltered table stampTarget) :
    table.toList.Pairwise fun m n => (job.target n).Spares (job.target m) := by
  refine (MappingTable.firstFault?_eq_none_iff.1 table.valid).2.imp_of_mem ?_
  intro m n hm hn hmn
  obtain ⟨hnrelative, -, hnne⟩ := sound_of_mem hn
  obtain ⟨hmrelative, -, -⟩ := sound_of_mem hm
  refine h.spares_of_ne hnrelative hnne hm ?_
  -- equal names below the root would make the destinations the same
  intro heq
  have hnames : job.embeddedRoot.names ++ m.destination.names =
      job.embeddedRoot.names ++ n.destination.names := by
    rw [← Path.names_join _ hmrelative, ← Path.names_join _ hnrelative]
    exact heq
  exact hmn.2 (Path.normalized_inj.2
    ⟨hmrelative.trans hnrelative.symm, List.append_cancel_left hnames⟩)

/-- Synchronising leaves every mapping of an undisturbed table idle. -/
theorem idle_syncAll (hdry : job.dryRun = false) (h : job.Sheltered table stampTarget) {tree : Tree}
    (hundisturbed : job.Undisturbed table.toList tree)
    (hdiscerning : job.Discerning table.toList tree) :
    ∀ m ∈ table.toList, job.Idle m (job.syncAll table.toList tree).2 := by
  intro m hm text htext
  rw [hundisturbed table.toList List.prefix_rfl m hm] at htext
  exact settled_of_mem hdry (plain_of_root h.root table) h.spares hundisturbed hdiscerning m hm text
    htext

/-! ## Synchronising a stamped tree -/

/-- A destination at the place of the stamped file is synchronised and has its text without the
stamp. -/
def Lost (job : Job) (table : MappingTable) (p : Path) (text : String) (s t : Tree) : Prop :=
  ∃ m ∈ table.toList, (job.target m).names = p.names ∧
    t = (s.update (job.target m) text false).2 ∧ s.Written t p text.toUTF8

variable {synced stamped lost : Tree} {text fresh : String}

/-- An update of a file of the given names keeps what is in the way of a destination. -/
theorem Sheltered.keeps (h : job.Sheltered table stampTarget) {d : Path}
    (hd : d.isAbsolute = false) (hplain : Tree.Plain (job.embeddedRoot.join d).names)
    (hne : d.names ≠ []) {m : Mapping} (hm : m ∈ table.toList) (tree : Tree) (text : String) :
    tree.Keeps (tree.update (job.embeddedRoot.join d) text false).2 (job.target m) := by
  obtain ⟨habsolute, hstaging⟩ := h.staging hd hne hm
  refine tree.update_keeps hplain ?_ habsolute.symm hstaging text
  rw [Path.names_join _ hd]
  simp [hne]

/-- What is settled before the stamp is put on is settled when it is lost. -/
theorem settled_of_lost (h : job.Sheltered table stampTarget) (hne : stampTarget.names ≠ [])
    (hstamped : Stamp.Stamped synced stamped (job.embeddedRoot.join stampTarget) text fresh)
    (hlost : job.Lost table (job.embeddedRoot.join stampTarget) text stamped lost)
    {m : Mapping} (hm : m ∈ table.toList) {content : ByteArray}
    (hsettled : synced.Settled (job.target m) content) : lost.Settled (job.target m) content := by
  obtain ⟨hstampRelative, hstampPlain⟩ := h.stamp
  obtain ⟨hplain, -⟩ := plain_of_root h.root table m hm
  obtain ⟨n, hn, hnames, hupdate, hwritten⟩ := hlost
  obtain ⟨hnrelative, -, hnne⟩ := sound_of_mem hn
  have hnplain := (plain_of_root h.root table n hn).1
  have hkeeps := h.keeps hstampRelative hstampPlain hne hm synced fresh
  have hkeeps' := h.keeps hnrelative hnplain hnne hm stamped text
  rw [← hstamped.update] at hkeeps
  refine hsettled.mono hplain (hkeeps.trans (hupdate ▸ hkeeps')) ?_
  intro hfile
  by_cases hplace : (job.target m).names = (job.embeddedRoot.join stampTarget).names
  -- the stamped file has its text again
  · have hstart : synced.start (job.target m) =
        synced.start (job.embeddedRoot.join stampTarget) :=
      Tree.start_of_isAbsolute (h.staging hstampRelative hne hm).1
    have hread := ((Tree.read_eq_ok_iff hstampPlain).1 hstamped.read).2.2.2
    rw [hstart, hplace, hread] at hfile
    rw [hstart, hplace, ← Tree.start_congr hstamped.written.here, hwritten.kind, if_pos rfl, hfile]
  -- another file is spared by both updates
  · have hstampNe : (job.embeddedRoot.join stampTarget).names ≠ [] := by
      simp [Path.names_join _ hstampRelative, hne]
    have hspares := h.spares_of_ne hstampRelative hne hm hplace
    have hspares' := h.spares_of_ne hnrelative hnne hm fun heq => hplace (heq.trans hnames)
    have hkept := synced.kind_update_of_file hstampPlain hstampNe hspares fresh hfile
    rw [← hstamped.update, ← Tree.start_congr hstamped.written.here] at hkept
    rw [hupdate, ← Tree.start_congr hstamped.written.here]
    exact stamped.kind_update_of_file hnplain (plain_of_root h.root table n hn).2 hspares' text hkept

/-- A destination at the place of the stamp that was settled before is left alone, or it loses the
stamp. -/
theorem update_of_stamped (h : job.Sheltered table stampTarget) (hne : stampTarget.names ≠ [])
    (hstamped : Stamp.Stamped synced stamped (job.embeddedRoot.join stampTarget) text fresh)
    {m : Mapping} (hm : m ∈ table.toList)
    (hplace : (job.target m).names = (job.embeddedRoot.join stampTarget).names) {found : String}
    (hsettled : synced.Settled (job.target m) found.toUTF8) :
    (stamped.update (job.target m) found false).2 = stamped ∨
      job.Lost table (job.embeddedRoot.join stampTarget) text stamped
        (stamped.update (job.target m) found false).2 := by
  obtain ⟨hstampRelative, hstampPlain⟩ := h.stamp
  obtain ⟨hplain, hmne⟩ := plain_of_root h.root table m hm
  obtain ⟨habsolute, -⟩ := h.staging hstampRelative hne hm
  rcases hsettled with hread | ⟨hwritable, hstuck⟩
  -- the destination had the text that was stamped
  · have hstart : synced.start (job.target m) =
        synced.start (job.embeddedRoot.join stampTarget) := Tree.start_of_isAbsolute habsolute
    obtain ⟨hcheck, hend, hfit, hkind⟩ := (Tree.read_eq_ok_iff hplain).1 hread
    have hkind' := ((Tree.read_eq_ok_iff hstampPlain).1 hstamped.read).2.2.2
    rw [hstart, hplace, hkind'] at hkind
    obtain rfl : text = found := String.toByteArray_inj.1 (NodeKind.file.inj hkind)
    have hread' : stamped.read (job.target m) = .ok fresh.toUTF8 := by
      refine (Tree.read_eq_ok_iff hplain).2 ⟨hcheck, hend, hfit, ?_⟩
      rw [Tree.start_congr hstamped.written.here, hstart, hplace, hstamped.written.kind, if_pos rfl]
    rcases Tree.update_of_read hplain hread' text with hsame | ⟨-, -, hwritten⟩
    · exact Or.inl hsame
    · exact Or.inr ⟨m, hm, hplace, rfl,
        hwritten.congr habsolute.symm hend hstamped.writable.ending hplace.symm⟩
  -- what could not be written before cannot be written with the stamp on
  · left
    have hkeeps := h.keeps hstampRelative hstampPlain hne hm synced fresh
    rw [← hstamped.update] at hkeeps
    refine Tree.update_of_settled hplain hmne (Or.inr ⟨?_, hstuck.of_keeps hplain hkeeps⟩)
    intro hw
    exact hwritable (hw.of_hinders hkeeps.toHinders)

/-- With the stamp on, a mapping that was idle does nothing, or it takes the stamp off its
destination. -/
theorem syncOne_of_stamped (hdry : job.dryRun = false) (h : job.Sheltered table stampTarget)
    (hne : stampTarget.names ≠ [])
    (hstamped : Stamp.Stamped synced stamped (job.embeddedRoot.join stampTarget) text fresh)
    {m : Mapping} (hm : m ∈ table.toList) (hidle : job.Idle m synced)
    (hsource : stamped.readText? (job.source m) = synced.readText? (job.source m)) :
    (job.syncOne m stamped).2 = stamped ∨
      job.Lost table (job.embeddedRoot.join stampTarget) text stamped (job.syncOne m stamped).2 := by
  by_cases htext : ∃ found, stamped.readText? (job.source m) = .ok (some found)
  · obtain ⟨found, hfound⟩ := htext
    rw [syncOne_of_text hdry hfound]
    rw [hsource] at hfound
    have hsettled := hidle found hfound
    by_cases hplace : (job.target m).names = (job.embeddedRoot.join stampTarget).names
    · exact update_of_stamped h hne hstamped hm hplace hsettled
    · left
      obtain ⟨hstampRelative, hstampPlain⟩ := h.stamp
      obtain ⟨hplain, hmne⟩ := plain_of_root h.root table m hm
      have hstampNe : (job.embeddedRoot.join stampTarget).names ≠ [] := by
        simp [Path.names_join _ hstampRelative, hne]
      have hkept := hsettled.of_update hplain hstampPlain hstampNe
        (h.spares_of_ne hstampRelative hne hm hplace) fresh
      rw [← hstamped.update] at hkept
      exact Tree.update_of_settled hplain hmne hkept
  · exact Or.inl (syncOne_of_lost fun found hfound => htext ⟨found, hfound⟩).2

/-- Synchronising a stamped tree does nothing, or it takes the stamp off. -/
theorem syncAll_of_stamped (hdry : job.dryRun = false) (h : job.Sheltered table stampTarget)
    (hne : stampTarget.names ≠ [])
    (hstamped : Stamp.Stamped synced stamped (job.embeddedRoot.join stampTarget) text fresh)
    (hidle : ∀ m ∈ table.toList, job.Idle m synced)
    (hsources : ∀ m ∈ table.toList,
      stamped.readText? (job.source m) = synced.readText? (job.source m))
    {mappings : List Mapping} (hmappings : ∀ m ∈ mappings, m ∈ table.toList) :
    (job.syncAll mappings stamped).2 = stamped ∨
      job.Lost table (job.embeddedRoot.join stampTarget) text stamped
        (job.syncAll mappings stamped).2 := by
  induction mappings with
  | nil => exact Or.inl rfl
  | cons m mappings ih =>
      have hm := hmappings m (by simp)
      have hrest : ∀ n ∈ mappings, n ∈ table.toList := fun n hn => hmappings n (by simp [hn])
      rw [syncAll_cons]
      rcases syncOne_of_stamped hdry h hne hstamped hm (hidle m hm) (hsources m hm) with
        hsame | hlost
      · rw [hsame]
        exact ih hrest
      -- without the stamp the other mappings are idle as they were before it
      · right
        have hwritten : stamped.Written (job.syncOne m stamped).2
            (job.embeddedRoot.join stampTarget) text.toUTF8 := by
          obtain ⟨-, -, -, -, hwritten⟩ := hlost
          exact hwritten
        rw [syncAll_of_idle hdry fun n hn => plain_of_root h.root table n (hrest n hn)]
        · exact hlost
        · intro n hn found hfound
          have hn' := hrest n hn
          rw [Stamp.readText?_of_lost h.stamp.2 hstamped hwritten (hsources n hn')] at hfound
          exact settled_of_lost h hne hstamped hlost hn' (hidle n hn' found hfound)

/-- Synchronising an undisturbed table and stamping a second time leaves everything as it was after
the first time. -/
theorem stamped_again (hdry : job.dryRun = false) (h : job.Sheltered table stampTarget)
    {beginning label : String} (hbeginning : Stamp.OneLine beginning.toList)
    (hlabel : Stamp.OneLine label.toList) {tree : Tree}
    (hsynced : (job.syncAll table.toList tree).2 = synced)
    (hstamped : (Stamp.apply synced (job.embeddedRoot.join stampTarget) beginning
      (Stamp.line beginning label)).2 = stamped)
    (hundisturbed : job.Undisturbed table.toList tree)
    (hsources : ∀ m ∈ table.toList,
      stamped.readText? (job.source m) = tree.readText? (job.source m))
    (hdiscerning : job.Discerning table.toList tree) :
    (Stamp.apply (job.syncAll table.toList stamped).2 (job.embeddedRoot.join stampTarget) beginning
      (Stamp.line beginning label)).2.Alike stamped := by
  have hidle := idle_syncAll hdry h hundisturbed hdiscerning
  have hread : ∀ m ∈ table.toList,
      synced.readText? (job.source m) = tree.readText? (job.source m) := by
    rw [← hsynced]
    exact hundisturbed table.toList List.prefix_rfl
  rw [hsynced] at hidle
  obtain ⟨hstampRelative, hstampPlain⟩ := h.stamp
  rcases Stamp.apply_cases hstampPlain beginning (Stamp.line beginning label) with
    hsame | ⟨text, hunstamped, hput⟩
  -- nothing was stamped, and there is nothing to synchronise
  · rw [hsame] at hstamped
    rw [← hstamped, syncAll_of_idle hdry (plain_of_root h.root table) hidle, hsame]
    exact Tree.Alike.refl synced
  · rw [hstamped] at hput
    have hne : stampTarget.names ≠ [] :=
      Path.names_ne_nil_of_join hstampRelative hput.writable.ending
    have hline : (Stamp.line beginning label).toList =
        beginning.toList ++ label.toList ++ ['\n'] := by
      simp [Stamp.line, String.toList_append]
    have honce : Stamp.isStamped beginning.toList (Stamp.line beginning label).toList
        (Stamp.fresh beginning (Stamp.line beginning label) text).toList = true := by
      rw [Stamp.fresh, String.toList_ofList, hline]
      exact Stamp.isStamped_stamped hbeginning hlabel text.toList
    rcases syncAll_of_stamped hdry h hne hput hidle
        (fun m hm => (hsources m hm).trans (hread m hm).symm) fun m hm => hm with hsame | hlost
    · rw [hsame, Stamp.apply_of_stamped hstampPlain honce hput]
      exact Tree.Alike.refl stamped
    · obtain ⟨-, -, -, -, hwritten⟩ := hlost
      exact Stamp.apply_of_lost hstampPlain hunstamped hput hwritten

end

end Sync.Job

end Vendoring
