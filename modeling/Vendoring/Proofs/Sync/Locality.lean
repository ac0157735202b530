import Mathlib.Data.List.Infix
import Vendoring.Mapping.Lemmas
import Vendoring.Proofs.Update.Anywhere
import Vendoring.Proofs.Update.Beside
import Vendoring.Sync

/-!
# Every mapping for itself

Mappings share one tree, but if no destination lies above another one and nothing that is written
changes a source, then every mapping comes out as if it were the only one (`run_entrywise`): its row
says the same, and the same stands at its destination. No other file changes. So the order of the
table does not matter, and a source that is lost changes only its own row and destination, which is
left as it is found.
-/

namespace Vendoring.Sync

/-- What a row says apart from the wording of what went wrong. -/
def Row.gist (row : Row) : Mapping × String × Option Update :=
  (row.mapping, row.outcome.status, row.outcome.update?)

namespace Job

/-- Nothing that synchronising the mappings writes changes what reading one of their sources
returns. -/
def Undisturbed (job : Job) (mappings : List Mapping) (tree : Tree) : Prop :=
  ∀ done, done <+: mappings → ∀ m ∈ mappings,
    (job.syncAll done tree).2.readText? (job.source m) = tree.readText? (job.source m)

/-- Whether the sources are undisturbed is told by finitely many trees. -/
theorem undisturbed_iff {job : Job} {mappings : List Mapping} {tree : Tree} :
    job.Undisturbed mappings tree ↔ ∀ done ∈ mappings.inits, ∀ m ∈ mappings,
      (job.syncAll done tree).2.readText? (job.source m) = tree.readText? (job.source m) := by
  simp only [Undisturbed, List.mem_inits]

instance (job : Job) (mappings : List Mapping) (tree : Tree) :
    Decidable (job.Undisturbed mappings tree) :=
  decidable_of_iff _ undisturbed_iff.symm

/-- The root is reached without climbing, no destination of the table lies above another one, and
none has a component that ends like the name of a staging file. -/
structure Separate (job : Job) (table : MappingTable) : Prop where
  root : .parent ∉ job.embeddedRoot.components
  unnested : ∀ m ∈ table.toList, ∀ n ∈ table.toList,
    m.destination.normalized <+: n.destination.normalized →
      m.destination.normalized = n.destination.normalized
  unstaged : ∀ m ∈ table.toList, m.destination.isUnstaged = true

/-- The place of the destination of a mapping. -/
def targetPlace (job : Job) (tree : Tree) (m : Mapping) : List Name :=
  tree.placeOf (job.target m)

/-- The place of the staging file of the destination of a mapping. -/
def stagingPlace (job : Job) (tree : Tree) (m : Mapping) : List Name :=
  tree.placeOf (job.target m).staging

/-- Every mapping of the table comes out as if it were the only one, and no other file changes. -/
structure Entrywise (job : Job) (table : MappingTable) (tree : Tree) : Prop where
  rows : (job.run table tree).1.rows.map Row.gist =
    table.toList.map fun m => Row.gist ⟨m, (job.syncOne m tree).1⟩
  targets : ∀ m ∈ table.toList, (job.run table tree).2.kind (job.targetPlace tree m) =
    (job.syncOne m tree).2.kind (job.targetPlace tree m)
  stagings : ∀ m ∈ table.toList, (job.run table tree).2.kind (job.stagingPlace tree m) =
    (job.syncOne m tree).2.kind (job.stagingPlace tree m)
  others : ∀ place, (∀ m ∈ table.toList, place ≠ job.targetPlace tree m ∧
      place ≠ job.stagingPlace tree m) →
    ∀ content, (job.run table tree).2.kind place = .file content ↔ tree.kind place = .file content

/-- In the second tree some sources are missing or unreadable. The other sources read the same, and
on the way to their destinations and at the staging files of these stands the same. -/
structure Loses (job : Job) (table : MappingTable) (lost : Mapping → Prop) (s t : Tree) : Prop where
  here : t.here = s.here
  gone : ∀ m ∈ table.toList, lost m → ∀ text, t.readText? (job.source m) ≠ .ok (some text)
  kept : ∀ m ∈ table.toList, ¬ lost m → t.readText? (job.source m) = s.readText? (job.source m)
  way : ∀ m ∈ table.toList, ¬ lost m → ∀ place,
    place <+: job.targetPlace s m ∨ place = job.stagingPlace s m → t.kind place = s.kind place

/-! ## One mapping -/

/-- What one mapping leaves behind if its source gives a text. -/
theorem syncOne_of_text {job : Job} (hdry : job.dryRun = false) {m : Mapping} {tree : Tree}
    {text : String} (h : tree.readText? (job.source m) = .ok (some text)) :
    (job.syncOne m tree).2 =
      (tree.update (job.target m) (job.transformer.transform text m.source) false).2 := by
  unfold syncOne
  simp only [h, hdry]
  split <;> rename_i hupdate <;> rw [hupdate]

/-- A mapping does nothing in a dry run. -/
theorem syncOne_dry {job : Job} (hdry : job.dryRun = true) (m : Mapping) (tree : Tree) :
    (job.syncOne m tree).2 = tree := by
  unfold syncOne
  simp only [hdry]
  split
  · rfl
  · rfl
  · rename_i text _
    have hupdate := tree.update_dry (job.target m) (job.transformer.transform text m.source)
    split <;> rename_i heq <;> rw [heq] at hupdate <;> exact hupdate

/-- A mapping whose source is lost does nothing. -/
theorem syncOne_of_lost {job : Job} {m : Mapping} {tree : Tree}
    (h : ∀ text, tree.readText? (job.source m) ≠ .ok (some text)) :
    (job.syncOne m tree).1.update? = none ∧ (job.syncOne m tree).2 = tree := by
  unfold syncOne
  simp only
  split
  · exact ⟨rfl, rfl⟩
  · exact ⟨rfl, rfl⟩
  · rename_i text htext
    exact absurd htext (h text)

/-- What one mapping leaves behind is the tree it found or an update of it. -/
theorem syncOne_tree {job : Job} (hdry : job.dryRun = false) (m : Mapping) (tree : Tree) :
    (job.syncOne m tree).2 = tree ∨
      ∃ text, (job.syncOne m tree).2 = (tree.update (job.target m) text false).2 := by
  by_cases htext : ∃ text, tree.readText? (job.source m) = .ok (some text)
  · obtain ⟨text, htext⟩ := htext
    exact Or.inr ⟨_, syncOne_of_text hdry htext⟩
  · exact Or.inl (syncOne_of_lost fun text hread => htext ⟨text, hread⟩).2

/-- A mapping whose source reads the same comes out the same before and after files beside its
destination are written. -/
theorem syncOne_beside {job : Job} (hdry : job.dryRun = false) {m : Mapping} {s t : Tree}
    (hplain : Tree.Plain (job.target m).names) (hne : (job.target m).names ≠ [])
    (hread : t.readText? (job.source m) = s.readText? (job.source m)) (h : s.Beside t (job.target m)) :
    Row.gist ⟨m, (job.syncOne m t).1⟩ = Row.gist ⟨m, (job.syncOne m s).1⟩ ∧
      (job.syncOne m t).2.kind (s.start (job.target m) ++ (job.target m).names) =
        (job.syncOne m s).2.kind (s.start (job.target m) ++ (job.target m).names) ∧
      (job.syncOne m t).2.kind (s.start (job.target m) ++ (job.target m).staging.names) =
        (job.syncOne m s).2.kind (s.start (job.target m) ++ (job.target m).staging.names) := by
  unfold syncOne
  simp only [hdry, hread]
  split
  · exact ⟨rfl, h.target, h.staging⟩
  · exact ⟨rfl, h.target, h.staging⟩
  · rename_i text _
    obtain ⟨hresult, hkinds⟩ := h.update hplain hne (job.transformer.transform text m.source)
    cases ht : t.update (job.target m) (job.transformer.transform text m.source) false with
    | mk result t' =>
        cases hs : s.update (job.target m) (job.transformer.transform text m.source) false with
        | mk result' s' =>
            rw [ht, hs] at hresult hkinds
            cases result with
            | ok update =>
                cases result' with
                | ok update' =>
                    obtain rfl : update = update' := Option.some.inj hresult
                    exact ⟨rfl, hkinds⟩
                | error error' => cases hresult
            | error error =>
                cases result' with
                | ok update' => cases hresult
                | error error' => exact ⟨rfl, hkinds⟩

/-- A mapping leaves what lies apart from its destination alone. -/
theorem beside_syncOne {job : Job} (hdry : job.dryRun = false) {m : Mapping} {p : Path}
    (hplain : Tree.Plain (job.target m).names) (hne : (job.target m).names ≠ [])
    (h : p.Apart (job.target m)) (tree : Tree) : tree.Beside (job.syncOne m tree).2 p := by
  rcases syncOne_tree hdry m tree with heq | ⟨text, heq⟩
  · rw [heq]
    exact Tree.Beside.refl tree p
  · rw [heq]
    exact tree.update_beside hplain hne h text

/-- Synchronising a mapping keeps the working directory. -/
theorem here_syncOne {job : Job} (hdry : job.dryRun = false) (m : Mapping) (tree : Tree) :
    (job.syncOne m tree).2.here = tree.here := by
  rcases syncOne_tree hdry m tree with heq | ⟨text, heq⟩
  · rw [heq]
  · rw [heq]
    exact (tree.update_kind (job.target m) text).1

/-! ## All mappings -/

/-- The first mapping is synchronised, and the others in the tree that it leaves. -/
theorem syncAll_cons (job : Job) (m : Mapping) (mappings : List Mapping) (tree : Tree) :
    job.syncAll (m :: mappings) tree =
      (⟨m, (job.syncOne m tree).1⟩ :: (job.syncAll mappings (job.syncOne m tree).2).1,
        (job.syncAll mappings (job.syncOne m tree).2).2) := by
  rw [syncAll]

/-- The rows are about the mappings, in order. -/
theorem mappings_syncAll (job : Job) (mappings : List Mapping) (tree : Tree) :
    (job.syncAll mappings tree).1.map Row.mapping = mappings := by
  induction mappings generalizing tree with
  | nil => rfl
  | cons m mappings ih => rw [syncAll_cons, List.map_cons, ih]

/-- The destinations of the mappings can be written to without climbing. -/
def Plain (job : Job) (mappings : List Mapping) : Prop :=
  ∀ m ∈ mappings, Tree.Plain (job.target m).names ∧ (job.target m).names ≠ []

/-- Synchronising does nothing in a dry run. -/
theorem syncAll_dry {job : Job} (hdry : job.dryRun = true) (mappings : List Mapping) (tree : Tree) :
    (job.syncAll mappings tree).2 = tree := by
  induction mappings generalizing tree with
  | nil => rfl
  | cons m mappings ih =>
      unfold syncAll
      simp only [syncOne_dry hdry m tree]
      exact ih tree

/-- Synchronising mappings keeps the working directory. -/
theorem here_syncAll {job : Job} (hdry : job.dryRun = false) (mappings : List Mapping)
    (tree : Tree) : (job.syncAll mappings tree).2.here = tree.here := by
  induction mappings generalizing tree with
  | nil => rfl
  | cons m mappings ih =>
      rw [syncAll_cons]
      exact (ih _).trans (here_syncOne hdry m tree)

/-- Mappings that lie apart from a file are synchronised beside it. -/
theorem beside_syncAll {job : Job} (hdry : job.dryRun = false) {p : Path} {mappings : List Mapping}
    (hplain : job.Plain mappings) (h : ∀ m ∈ mappings, p.Apart (job.target m)) (tree : Tree) :
    tree.Beside (job.syncAll mappings tree).2 p := by
  induction mappings generalizing tree with
  | nil => exact Tree.Beside.refl tree p
  | cons m mappings ih =>
      rw [syncAll_cons]
      obtain ⟨hm, hne⟩ := hplain m (by simp)
      refine (beside_syncOne hdry hm hne (h m (by simp)) tree).trans ?_
      exact ih (fun n hn => hplain n (by simp [hn])) (fun n hn => h n (by simp [hn])) _

/-- Mappings that are apart from one another come out as each of them does alone on another tree, if
that tree differs only beside their destinations and their sources read the same in it. -/
theorem syncAll_entrywise {job : Job} (hdry : job.dryRun = false) {mappings : List Mapping}
    {s t : Tree} (hplain : job.Plain mappings)
    (hapart : mappings.Pairwise fun m n =>
      (job.target m).Apart (job.target n) ∧ (job.target n).Apart (job.target m))
    (hbeside : ∀ m ∈ mappings, s.Beside t (job.target m))
    (hread : ∀ done, done <+: mappings → ∀ m ∈ mappings,
      (job.syncAll done t).2.readText? (job.source m) = s.readText? (job.source m)) :
    (job.syncAll mappings t).1.map Row.gist =
        mappings.map (fun m => Row.gist ⟨m, (job.syncOne m s).1⟩) ∧
      ∀ m ∈ mappings,
        (job.syncAll mappings t).2.kind (s.start (job.target m) ++ (job.target m).names) =
          (job.syncOne m s).2.kind (s.start (job.target m) ++ (job.target m).names) ∧
        (job.syncAll mappings t).2.kind (s.start (job.target m) ++ (job.target m).staging.names) =
          (job.syncOne m s).2.kind (s.start (job.target m) ++ (job.target m).staging.names) := by
  induction mappings generalizing t with
  | nil => exact ⟨rfl, fun m hm => absurd hm List.not_mem_nil⟩
  | cons m mappings ih =>
      obtain ⟨hm, hne⟩ := hplain m (by simp)
      obtain ⟨hfirst, hrest⟩ := List.pairwise_cons.1 hapart
      have hreadFirst : t.readText? (job.source m) = s.readText? (job.source m) :=
        hread [] List.nil_prefix m (by simp)
      obtain ⟨hgist, hkinds⟩ :=
        syncOne_beside hdry hm hne hreadFirst (hbeside m (by simp))
      have hplain' : job.Plain mappings := fun n hn => hplain n (by simp [hn])
      obtain ⟨hrows, hkindsRest⟩ := ih (t := (job.syncOne m t).2) hplain' hrest
        (fun n hn => (hbeside n (by simp [hn])).trans
          (beside_syncOne hdry hm hne (hfirst n hn).2 t))
        (fun done hdone n hn => hread (m :: done) (by simpa using hdone) n (by simp [hn]))
      rw [syncAll_cons]
      refine ⟨by rw [List.map_cons, List.map_cons, hgist, hrows], ?_⟩
      intro n hn
      rcases List.mem_cons.1 hn with rfl | hn
      -- the mappings behind it leave the first one alone
      · have hkept := beside_syncAll hdry hplain' (fun k hk => (hfirst k hk).1) (job.syncOne n t).2
        have hstart : (job.syncOne n t).2.start (job.target n) = s.start (job.target n) := by
          rw [Tree.start_congr (here_syncOne hdry n t),
            Tree.start_congr (hbeside n (by simp)).hinders.here]
        have htarget := hkept.target
        have hstaging := hkept.staging
        rw [hstart] at htarget hstaging
        exact ⟨htarget.trans hkinds.1, hstaging.trans hkinds.2⟩
      · exact hkindsRest n hn

/-- A file that is neither a destination nor a staging file of one stays as it is. -/
theorem syncAll_file {job : Job} (hdry : job.dryRun = false) {mappings : List Mapping}
    (hplain : job.Plain mappings) {tree : Tree} {place : List Name}
    (hplace : ∀ m ∈ mappings, place ≠ tree.start (job.target m) ++ (job.target m).names ∧
      place ≠ tree.start (job.target m) ++ (job.target m).staging.names)
    (content : ByteArray) :
    (job.syncAll mappings tree).2.kind place = .file content ↔ tree.kind place = .file content := by
  induction mappings generalizing tree with
  | nil => rfl
  | cons m mappings ih =>
      rw [syncAll_cons]
      obtain ⟨hm, hne⟩ := hplain m (by simp)
      have hone : (job.syncOne m tree).2.kind place = .file content ↔
          tree.kind place = .file content := by
        rcases syncOne_tree hdry m tree with heq | ⟨text, heq⟩
        · rw [heq]
        · rw [heq]
          obtain ⟨htarget, hstaging⟩ := hplace m (by simp)
          exact tree.file_update hm hne text htarget hstaging content
      refine (ih (fun n hn => hplain n (by simp [hn])) fun n hn => ?_).trans hone
      rw [Tree.start_congr (here_syncOne hdry m tree)]
      exact hplace n (by simp [hn])

/-! ## Tables -/

/-- A path without `..` goes down. -/
theorem plain_of_components {p : Path} (h : .parent ∉ p.components) : Tree.Plain p.names :=
  Tree.plain_names_iff.2 fun hup => h (Path.parent_mem_components.2 hup)

/-- A destination of a table is relative, goes down and has names. -/
theorem sound_of_mem {table : MappingTable} {m : Mapping} (hm : m ∈ table.toList) :
    m.destination.isAbsolute = false ∧ Tree.Plain m.destination.names ∧
      m.destination.names ≠ [] := by
  obtain ⟨-, -, hinside, hnormalized⟩ :=
    (MappingTable.firstFault?_eq_none_iff.1 table.valid).1 m hm
  obtain ⟨hrelative, hup⟩ := Path.staysInside_iff.1 hinside
  refine ⟨hrelative, Tree.plain_names_iff.2 hup, fun hnames => hnormalized ?_⟩
  rw [Path.normalized_eq, hrelative, hnames]
  rfl

/-- Below a root that is reached without climbing every destination of a table is written to without
climbing. -/
theorem plain_of_root {job : Job} (hroot : .parent ∉ job.embeddedRoot.components)
    (table : MappingTable) : job.Plain table.toList := by
  intro m hm
  obtain ⟨hrelative, hplain, hne⟩ := sound_of_mem hm
  have hnames : (job.target m).names = job.embeddedRoot.names ++ m.destination.names :=
    Path.names_join _ hrelative
  rw [hnames]
  exact ⟨Tree.plain_append.2 ⟨plain_of_components hroot, hplain⟩, by simp [hne]⟩

/-- Destinations of a separate table lie apart from one another, in both directions. -/
theorem Separate.apart {job : Job} {table : MappingTable} (h : job.Separate table) :
    table.toList.Pairwise fun m n =>
      (job.target m).Apart (job.target n) ∧ (job.target n).Apart (job.target m) := by
  refine (MappingTable.firstFault?_eq_none_iff.1 table.valid).2.imp_of_mem ?_
  intro m n hm hn hmn
  obtain ⟨hmrelative, -, hmne⟩ := sound_of_mem hm
  obtain ⟨hnrelative, -, hnne⟩ := sound_of_mem hn
  have hnested : ∀ {k l : Mapping}, k ∈ table.toList → l ∈ table.toList →
      k.destination.normalized ≠ l.destination.normalized →
      ¬ k.destination.names <+: l.destination.names := by
    intro k l hk hl hne hbelow
    refine hne (h.unnested k hk l hl ?_)
    rw [Path.normalized_eq, Path.normalized_eq, (sound_of_mem hk).1, (sound_of_mem hl).1]
    exact hbelow.map _
  have hbelow := hnested hm hn hmn.2
  have habove := hnested hn hm hmn.2.symm
  exact ⟨Path.apart_join _ hmrelative hnrelative hmne hnne (h.unstaged m hm) (h.unstaged n hn)
      hbelow habove,
    Path.apart_join _ hnrelative hmrelative hnne hmne (h.unstaged n hn) (h.unstaged m hm)
      habove hbelow⟩

/-- Without climbing the place of a destination is told by its names. -/
theorem targetPlace_eq {job : Job} {mappings : List Mapping} (hplain : job.Plain mappings)
    {m : Mapping} (hm : m ∈ mappings) (tree : Tree) :
    job.targetPlace tree m = tree.start (job.target m) ++ (job.target m).names :=
  Tree.placeOf_of_plain (hplain m hm).1 tree

/-- Without climbing the place of a staging file is told by its names. -/
theorem stagingPlace_eq {job : Job} {mappings : List Mapping} (hplain : job.Plain mappings)
    {m : Mapping} (hm : m ∈ mappings) (tree : Tree) :
    job.stagingPlace tree m = tree.start (job.target m) ++ (job.target m).staging.names := by
  obtain ⟨hnames, hne⟩ := hplain m hm
  rw [stagingPlace, Tree.placeOf_of_plain (Tree.plain_staging hnames hne),
    Tree.start_staging tree hne]

/-- In an undisturbed run every mapping comes out as if it were the only one. -/
theorem entrywise {job : Job} {table : MappingTable} {tree : Tree} (hdry : job.dryRun = false)
    (hseparate : job.Separate table) (hundisturbed : job.Undisturbed table.toList tree) :
    job.Entrywise table tree := by
  have hplain := plain_of_root hseparate.root table
  obtain ⟨hrows, hkinds⟩ := syncAll_entrywise hdry hplain hseparate.apart
    (fun m _ => Tree.Beside.refl tree _) hundisturbed
  refine ⟨hrows, ?_, ?_, ?_⟩
  · intro m hm
    rw [targetPlace_eq hplain hm]
    exact (hkinds m hm).1
  · intro m hm
    rw [stagingPlace_eq hplain hm]
    exact (hkinds m hm).2
  · intro place hplace content
    refine syncAll_file hdry hplain (fun m hm => ?_) content
    rw [← targetPlace_eq hplain hm, ← stagingPlace_eq hplain hm]
    exact hplace m hm

/-- Tables with the same mappings leave the same files. -/
theorem Entrywise.files {job : Job} {table table' : MappingTable} {tree : Tree}
    (h : job.Entrywise table tree) (h' : job.Entrywise table' tree)
    (hsame : ∀ m, m ∈ table'.toList ↔ m ∈ table.toList) (place : List Name)
    (content : ByteArray) :
    (job.run table' tree).2.kind place = .file content ↔
      (job.run table tree).2.kind place = .file content := by
  by_cases htarget : ∃ m ∈ table.toList, place = job.targetPlace tree m
  · obtain ⟨m, hm, rfl⟩ := htarget
    rw [h.targets m hm, h'.targets m ((hsame m).2 hm)]
  by_cases hstaging : ∃ m ∈ table.toList, place = job.stagingPlace tree m
  · obtain ⟨m, hm, rfl⟩ := hstaging
    rw [h.stagings m hm, h'.stagings m ((hsame m).2 hm)]
  have hother : ∀ m ∈ table.toList, place ≠ job.targetPlace tree m ∧
      place ≠ job.stagingPlace tree m := fun m hm =>
    ⟨fun heq => htarget ⟨m, hm, heq⟩, fun heq => hstaging ⟨m, hm, heq⟩⟩
  rw [h.others place hother, h'.others place fun m hm => hother m ((hsame m).1 hm)]

/-- A table of the same mappings in another order is separate, too. -/
theorem Separate.perm {job : Job} {table table' : MappingTable} (h : job.Separate table)
    (hperm : table'.toList.Perm table.toList) : job.Separate table' :=
  ⟨h.root, fun m hm n hn => h.unnested m (hperm.mem_iff.1 hm) n (hperm.mem_iff.1 hn),
    fun m hm => h.unstaged m (hperm.mem_iff.1 hm)⟩

/-! ## Lost sources -/

/-- Destinations and their staging files have the same places in both trees. -/
theorem Loses.places {job : Job} {table : MappingTable} {lost : Mapping → Prop} {s t : Tree}
    (h : job.Loses table lost s t) (m : Mapping) :
    job.targetPlace t m = job.targetPlace s m ∧ job.stagingPlace t m = job.stagingPlace s m := by
  unfold targetPlace stagingPlace Tree.placeOf
  rw [Tree.start_congr h.here, Tree.start_congr h.here]
  exact ⟨rfl, rfl⟩

/-- For a mapping that keeps its source, the trees differ beside its destination at most. -/
theorem Loses.beside {job : Job} {table : MappingTable} {lost : Mapping → Prop} {s t : Tree}
    (h : job.Loses table lost s t) (hplain : job.Plain table.toList) {m : Mapping}
    (hm : m ∈ table.toList) (hkept : ¬ lost m) : s.Beside t (job.target m) := by
  have hway := h.way m hm hkept
  rw [targetPlace_eq hplain hm, stagingPlace_eq hplain hm] at hway
  have hstart := hway _ (Or.inl (List.prefix_append _ _))
  have htarget := hway _ (Or.inl List.prefix_rfl)
  have hstaging := hway _ (Or.inr rfl)
  have habove : ∀ place, place <+: s.start (job.target m) ++ (job.target m).names.dropLast →
      t.kind place = s.kind place := fun place hplace =>
    hway place (Or.inl (hplace.trans
      ((List.prefix_append_right_inj _).2 (List.dropLast_prefix _))))
  refine ⟨⟨h.here, ?_, ?_, ?_, ?_⟩, ⟨h.here.symm, ?_, ?_, ?_, ?_⟩, htarget, hstaging⟩
  · rw [hstart]
    exact id
  · intro place _ hbelow content hfile
    exact ⟨content, (habove place hbelow).trans hfile⟩
  · rw [htarget]
    exact id
  · rw [hstaging]
    exact id
  all_goals rw [Tree.start_congr h.here]
  · rw [hstart]
    exact id
  · intro place _ hbelow content hfile
    exact ⟨content, (habove place hbelow).symm.trans hfile⟩
  · rw [htarget]
    exact id
  · rw [hstaging]
    exact id

/-- A row is about a mapping of the table, and says what the mapping comes to alone. -/
theorem Entrywise.gist_of_mem {job : Job} {table : MappingTable} {tree : Tree}
    (h : job.Entrywise table tree) {row : Row} (hrow : row ∈ (job.run table tree).1.rows) :
    row.mapping ∈ table.toList ∧
      row.gist = Row.gist ⟨row.mapping, (job.syncOne row.mapping tree).1⟩ := by
  have hgist : row.gist ∈ (job.run table tree).1.rows.map Row.gist :=
    List.mem_map.2 ⟨row, hrow, rfl⟩
  rw [h.rows] at hgist
  obtain ⟨m, hm, heq⟩ := List.mem_map.1 hgist
  have hmapping : m = row.mapping := congrArg Prod.fst heq
  subst hmapping
  exact ⟨hm, heq.symm⟩

/-- With some sources lost, the files are as before, but perhaps at the destinations of the mappings
that lost theirs and at their staging files. -/
theorem Loses.files {job : Job} {table : MappingTable} {lost : Mapping → Prop} {s t : Tree}
    (hdry : job.dryRun = false) (hplain : job.Plain table.toList) (h : job.Loses table lost s t)
    (hs : job.Entrywise table s) (ht : job.Entrywise table t) {place : List Name}
    (hlost : ∀ m ∈ table.toList, lost m → place ≠ job.targetPlace s m ∧
      place ≠ job.stagingPlace s m)
    (hfile : ∀ content, t.kind place = .file content ↔ s.kind place = .file content)
    (content : ByteArray) :
    (job.run table t).2.kind place = .file content ↔
      (job.run table s).2.kind place = .file content := by
  have hone : ∀ m ∈ table.toList, ¬ lost m →
      (job.syncOne m t).2.kind (job.targetPlace s m) =
          (job.syncOne m s).2.kind (job.targetPlace s m) ∧
        (job.syncOne m t).2.kind (job.stagingPlace s m) =
          (job.syncOne m s).2.kind (job.stagingPlace s m) := by
    intro m hm hkept
    rw [targetPlace_eq hplain hm, stagingPlace_eq hplain hm]
    obtain ⟨hnames, hne⟩ := hplain m hm
    exact (syncOne_beside hdry hnames hne (h.kept m hm hkept) (h.beside hplain hm hkept)).2
  by_cases htarget : ∃ m ∈ table.toList, place = job.targetPlace s m
  · obtain ⟨m, hm, rfl⟩ := htarget
    have hkept : ¬ lost m := fun hl => (hlost m hm hl).1 rfl
    have htargets := ht.targets m hm
    rw [(h.places m).1] at htargets
    rw [htargets, hs.targets m hm, (hone m hm hkept).1]
  by_cases hstaging : ∃ m ∈ table.toList, place = job.stagingPlace s m
  · obtain ⟨m, hm, rfl⟩ := hstaging
    have hkept : ¬ lost m := fun hl => (hlost m hm hl).2 rfl
    have hstagings := ht.stagings m hm
    rw [(h.places m).2] at hstagings
    rw [hstagings, hs.stagings m hm, (hone m hm hkept).2]
  have hother : ∀ m ∈ table.toList, place ≠ job.targetPlace s m ∧
      place ≠ job.stagingPlace s m := fun m hm =>
    ⟨fun heq => htarget ⟨m, hm, heq⟩, fun heq => hstaging ⟨m, hm, heq⟩⟩
  rw [hs.others place hother, ht.others place fun m hm => ?_]
  · exact hfile content
  · rw [(h.places m).1, (h.places m).2]
    exact hother m hm

/-- A mapping that lost its source updates nothing and leaves its destination as it was. -/
theorem Loses.still {job : Job} {table : MappingTable} {lost : Mapping → Prop} {s t : Tree}
    (h : job.Loses table lost s t) (ht : job.Entrywise table t) {m : Mapping}
    (hm : m ∈ table.toList) (hlost : lost m) :
    (∀ row ∈ (job.run table t).1.rows, row.mapping = m → row.outcome.update? = none) ∧
      (job.run table t).2.kind (job.targetPlace s m) = t.kind (job.targetPlace s m) ∧
      (job.run table t).2.kind (job.stagingPlace s m) = t.kind (job.stagingPlace s m) := by
  obtain ⟨hupdate, htree⟩ := syncOne_of_lost (h.gone m hm hlost)
  obtain ⟨htarget, hstaging⟩ := h.places m
  refine ⟨?_, ?_, ?_⟩
  · rintro row hrow rfl
    have hgist := congrArg (·.2.2) (ht.gist_of_mem hrow).2
    exact hgist.trans hupdate
  · rw [← htarget, ht.targets m hm, htree]
  · rw [← hstaging, ht.stagings m hm, htree]

/-- Every source is readable by a plain path and lies at the place of no destination and of no
staging file. -/
def SourcesApart (job : Job) (table : MappingTable) (tree : Tree) : Prop :=
  ∀ m ∈ table.toList, Tree.Plain (job.source m).names ∧
    (∃ content, tree.read (job.source m) = .ok content) ∧
    ∀ n ∈ table.toList, tree.placeOf (job.source m) ≠ job.targetPlace tree n ∧
      tree.placeOf (job.source m) ≠ job.stagingPlace tree n

/-- Sources that lie apart are read as before after any mappings of the table. -/
theorem SourcesApart.read {job : Job} {table : MappingTable} {tree : Tree}
    (h : job.SourcesApart table tree) (hdry : job.dryRun = false) (hplain : job.Plain table.toList)
    {done : List Mapping} (hdone : ∀ n ∈ done, n ∈ table.toList) {m : Mapping}
    (hm : m ∈ table.toList) {content : ByteArray} (hread : tree.read (job.source m) = .ok content) :
    (job.syncAll done tree).2.read (job.source m) = .ok content := by
  obtain ⟨hnames, -, hplace⟩ := h m hm
  have hplainDone : job.Plain done := fun n hn => hplain n (hdone n hn)
  refine Tree.read_mono hnames (here_syncAll hdry done tree) (fun hfile => ?_) hread
  refine (syncAll_file hdry hplainDone (fun n hn => ?_) content).2 hfile
  rw [← targetPlace_eq hplain (hdone n hn), ← stagingPlace_eq hplain (hdone n hn),
    ← Tree.placeOf_of_plain hnames]
  exact hplace n (hdone n hn)

/-- Sources that lie apart are undisturbed. -/
theorem SourcesApart.undisturbed {job : Job} {table : MappingTable} {tree : Tree}
    (h : job.SourcesApart table tree) (hdry : job.dryRun = false)
    (hplain : job.Plain table.toList) : job.Undisturbed table.toList tree := by
  intro done hdone m hm
  obtain ⟨-, ⟨content, hread⟩, -⟩ := h m hm
  unfold Tree.readText?
  rw [hread, h.read hdry hplain (fun n hn => hdone.subset hn) hm hread]

/-- Mappings are synchronised as if each were the only one, if no destination lies above another one
and nothing that is written changes a source. So the order of the table matters neither to the rows
nor to the files, and if sources are lost, then only the rows and the destinations of their mappings
change: these rows tell of no update, and what the tree has at these destinations stays. -/
theorem run_entrywise {job : Job} {table : MappingTable} {tree : Tree}
    (hdry : job.dryRun = false) (hseparate : job.Separate table)
    (hundisturbed : job.Undisturbed table.toList tree) :
    job.Entrywise table tree ∧
      (∀ table' : MappingTable, table'.toList.Perm table.toList →
        job.Undisturbed table'.toList tree →
        ((job.run table' tree).1.rows.map Row.gist).Perm
            ((job.run table tree).1.rows.map Row.gist) ∧
          ∀ place content, (job.run table' tree).2.kind place = .file content ↔
            (job.run table tree).2.kind place = .file content) ∧
      ∀ (lost : Mapping → Prop) (tree' : Tree), job.Loses table lost tree tree' →
        job.Undisturbed table.toList tree' →
        (∀ row' ∈ (job.run table tree').1.rows, ∀ row ∈ (job.run table tree).1.rows,
          row'.mapping = row.mapping → ¬ lost row.mapping → row'.gist = row.gist) ∧
        (∀ m ∈ table.toList, lost m →
          (∀ row' ∈ (job.run table tree').1.rows, row'.mapping = m →
            row'.outcome.update? = none) ∧
          (job.run table tree').2.kind (job.targetPlace tree m) =
            tree'.kind (job.targetPlace tree m) ∧
          (job.run table tree').2.kind (job.stagingPlace tree m) =
            tree'.kind (job.stagingPlace tree m)) ∧
        ∀ place, (∀ m ∈ table.toList, lost m → place ≠ job.targetPlace tree m ∧
            place ≠ job.stagingPlace tree m) →
          (∀ content, tree'.kind place = .file content ↔ tree.kind place = .file content) →
          ∀ content, (job.run table tree').2.kind place = .file content ↔
            (job.run table tree).2.kind place = .file content := by
  have hplain := plain_of_root hseparate.root table
  have hentrywise := entrywise hdry hseparate hundisturbed
  refine ⟨hentrywise, ?_, ?_⟩
  · intro table' hperm hundisturbed'
    have hentrywise' := entrywise hdry (hseparate.perm hperm) hundisturbed'
    refine ⟨?_, hentrywise.files hentrywise' fun m => hperm.mem_iff⟩
    rw [hentrywise.rows, hentrywise'.rows]
    exact hperm.map _
  · intro lost tree' hloses hundisturbed'
    have hentrywise' := entrywise hdry hseparate hundisturbed'
    refine ⟨fun row' hrow' row hrow hmapping hkept => ?_,
      fun m hm hlost => hloses.still hentrywise' hm hlost,
      fun place hplace hfile => hloses.files hdry hplain hentrywise hentrywise' hplace hfile⟩
    obtain ⟨-, hgist'⟩ := hentrywise'.gist_of_mem hrow'
    obtain ⟨hm, hgist⟩ := hentrywise.gist_of_mem hrow
    obtain ⟨hnames, hne⟩ := hplain _ hm
    rw [hgist, hgist', hmapping]
    exact (syncOne_beside hdry hnames hne (hloses.kept _ hm hkept)
      (hloses.beside hplain hm hkept)).1

/-- Two headers and where they go. -/
def sampleTable : MappingTable :=
  ⟨[⟨⟨"a.hpp"⟩, ⟨"a.hpp"⟩⟩, ⟨⟨"b.hpp"⟩, ⟨"core/b.hpp"⟩⟩], by decide⟩

/-- A job without rules. -/
def sampleJob : Job :=
  { transformer := ⟨[], ⟨"main.cpp"⟩, []⟩
    sourceDir := ⟨"up/src"⟩
    embeddedRoot := ⟨"host/src"⟩
    dryRun := false }

/-- A checkout with both headers and no host yet. -/
def sampleTree : Tree :=
  { root := .directory [("up".toList, .directory [("src".toList, .directory
      [("a.hpp".toList, .file "int a;".toUTF8), ("b.hpp".toList, .file "int b;".toUTF8)])])]
    here := [] }

/-- The same table from behind. -/
def swappedTable : MappingTable :=
  ⟨[⟨⟨"b.hpp"⟩, ⟨"core/b.hpp"⟩⟩, ⟨⟨"a.hpp"⟩, ⟨"a.hpp"⟩⟩], by decide⟩

/-- A checkout that has lost the second header. -/
def lostTree : Tree :=
  { root := .directory [("up".toList, .directory [("src".toList, .directory
      [("a.hpp".toList, .file "int a;".toUTF8)])])]
    here := [] }

/-- The second checkout has lost the second header and nothing else that matters. -/
theorem sample_loses :
    sampleJob.Loses sampleTable (·.source = ⟨"b.hpp"⟩) sampleTree lostTree := by
  have hgone : ∀ m ∈ sampleTable.toList, m.source = ⟨"b.hpp"⟩ →
      lostTree.readText? (sampleJob.source m) = .ok none := by
    decide +kernel
  have hway : ∀ m ∈ sampleTable.toList, m.source ≠ ⟨"b.hpp"⟩ →
      ∀ place ∈ sampleJob.stagingPlace sampleTree m :: (sampleJob.targetPlace sampleTree m).inits,
        lostTree.kind place = .directory ∧ sampleTree.kind place = .directory ∨
          lostTree.kind place = .missing ∧ sampleTree.kind place = .missing := by
    decide +kernel
  refine ⟨rfl, ?_, by decide +kernel, ?_⟩
  · intro m hm hlost text
    rw [hgone m hm hlost]
    simp
  · intro m hm hkept place hplace
    have hmem : place ∈
        sampleJob.stagingPlace sampleTree m :: (sampleJob.targetPlace sampleTree m).inits := by
      rw [List.mem_cons, List.mem_inits]
      exact hplace.symm
    rcases hway m hm hkept place hmem with ⟨hlost, hsame⟩ | ⟨hlost, hsame⟩ <;> rw [hlost, hsame]

/-- The order of the headers does not matter. If the second one is lost, the first one comes out as
before, and nothing is put where the second one goes. -/
theorem run_entrywise_sample :
    sampleJob.Separate sampleTable ∧ sampleJob.Undisturbed sampleTable.toList sampleTree ∧
      sampleJob.Entrywise sampleTable sampleTree ∧
      (((sampleJob.run swappedTable sampleTree).1.rows.map Row.gist).Perm
          ((sampleJob.run sampleTable sampleTree).1.rows.map Row.gist) ∧
        ∀ place content, (sampleJob.run swappedTable sampleTree).2.kind place = .file content ↔
          (sampleJob.run sampleTable sampleTree).2.kind place = .file content) ∧
      (∀ row' ∈ (sampleJob.run sampleTable lostTree).1.rows,
        ∀ row ∈ (sampleJob.run sampleTable sampleTree).1.rows, row'.mapping = row.mapping →
          row.mapping.source ≠ ⟨"b.hpp"⟩ → row'.gist = row.gist) ∧
      (sampleJob.run sampleTable lostTree).2.kind
        (sampleJob.targetPlace sampleTree ⟨⟨"b.hpp"⟩, ⟨"core/b.hpp"⟩⟩) = .missing ∧
      ∀ content, (sampleJob.run sampleTable lostTree).2.kind
          (sampleJob.targetPlace sampleTree ⟨⟨"a.hpp"⟩, ⟨"a.hpp"⟩⟩) = .file content ↔
        (sampleJob.run sampleTable sampleTree).2.kind
          (sampleJob.targetPlace sampleTree ⟨⟨"a.hpp"⟩, ⟨"a.hpp"⟩⟩) = .file content := by
  have hseparate : sampleJob.Separate sampleTable := ⟨by decide, by decide, by decide⟩
  have hundisturbed : sampleJob.Undisturbed sampleTable.toList sampleTree := by decide +kernel
  have hswapped : sampleJob.Undisturbed swappedTable.toList sampleTree := by decide +kernel
  have hlost : sampleJob.Undisturbed sampleTable.toList lostTree := by decide +kernel
  obtain ⟨hentrywise, hperm, hloses⟩ := run_entrywise rfl hseparate hundisturbed
  obtain ⟨hrows, hstill, hfiles⟩ := hloses _ lostTree sample_loses hlost
  refine ⟨hseparate, hundisturbed, hentrywise, hperm swappedTable (by decide) hswapped, hrows,
    ?_, hfiles _ ?_ ?_⟩
  · rw [(hstill ⟨⟨"b.hpp"⟩, ⟨"core/b.hpp"⟩⟩ (by decide) rfl).2.1]
    decide +kernel
  · decide +kernel
  · have hmissing : ∀ tree ∈ [lostTree, sampleTree],
        tree.kind (sampleJob.targetPlace sampleTree ⟨⟨"a.hpp"⟩, ⟨"a.hpp"⟩⟩) = .missing := by
      decide +kernel
    intro content
    rw [hmissing lostTree (by simp), hmissing sampleTree (by simp)]

end Job

end Vendoring.Sync
