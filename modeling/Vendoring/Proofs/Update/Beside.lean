import Vendoring.Proofs.Update.Settled

/-!
# Updates side by side

An update of one file does not touch another one whose path neither lies above it nor below it, if
neither of them lies at or below the staging file of the other (`Apart`). Such a file is updated
with the same result before and after (`Beside.update`). Files below one root are apart if their
names below the root are not nested and do not end like those of staging files (`apart_join`). Such
files and their staging files have their places below that of the root (`placeOf_join`,
`placeOf_staging_join`).
-/

namespace Vendoring

/-- Whether no component of the path ends like the name of a staging file. -/
def Path.isUnstaged (p : Path) : Bool :=
  p.components.all fun
    | .name name => !stagingEnding.toList.isSuffixOf name
    | _ => true

/-- The names of a path that is not staged do not end like those of staging files. -/
theorem Path.not_suffix_of_isUnstaged {p : Path} (h : p.isUnstaged = true) :
    ∀ name ∈ p.names, ¬ stagingEnding.toList <:+ name := by
  intro name hname hsuffix
  by_cases hup : name = ['.', '.']
  · have hlength := hsuffix.length_le
    rw [hup] at hlength
    simp [stagingEnding] at hlength
  · obtain ⟨head, hcomponents, -⟩ := components_eq p
    have hmem : .name name ∈ p.components := by
      rw [hcomponents]
      refine List.mem_append_right _ (List.mem_map.2 ⟨name, hname, ?_⟩)
      rw [componentOf, if_neg hup]
    have hcomponent := List.all_eq_true.1 h _ hmem
    rw [← List.isSuffixOf_iff_suffix] at hsuffix
    simp [hsuffix] at hcomponent

/-- Neither path lies at or above the other, nor its staging file at or above the other. -/
structure Path.Apart (p q : Path) : Prop where
  absolute : q.isAbsolute = p.isAbsolute
  below : ¬ p.names <+: q.names
  above : ¬ q.names <+: p.names
  stagingAbove : ¬ q.staging.names <+: p.names
  stagingBelow : ¬ p.staging.names <+: q.names
  staging : p.staging.names ≠ q.staging.names

/-- The paths start alike, name different files, and the staging file of the first one does not
stand at or above the second one. -/
structure Path.Spares (q p : Path) : Prop where
  absolute : q.isAbsolute = p.isAbsolute
  names : q.names ≠ p.names
  staging : ¬ q.staging.names <+: p.names

namespace Tree

/-- An update keeps directories. -/
theorem Change.of_directory {s : Tree} {p : Path} {content : ByteArray} {place : List Name}
    {kind : NodeKind} (h : s.Change p content place kind) (hs : s.kind place = .directory) :
    kind = .directory := by
  cases h with
  | same => exact hs
  | target _ hkind => exact absurd hs hkind
  | staging _ _ hkind => exact absurd hs hkind
  | directory => rfl

/-- An update keeps files except for a staging file. -/
theorem Change.of_file {s : Tree} {p : Path} {content : ByteArray} {place : List Name}
    {kind : NodeKind} (h : s.Change p content place kind) {old : ByteArray}
    (hs : s.kind place = .file old) (hplace : place ≠ s.start p ++ p.staging.names) :
    (∃ new, kind = .file new) ∧ (place ≠ s.start p ++ p.names → kind = .file old) := by
  cases h with
  | same => exact ⟨⟨old, hs⟩, fun _ => hs⟩
  | target htarget _ => exact ⟨⟨content, rfl⟩, fun h => absurd htarget h⟩
  | staging hstaging _ _ => exact absurd hstaging hplace
  | directory _ hmissing =>
      rw [hs] at hmissing
      cases hmissing

/-- A place where an update puts a directory is the start or lies strictly above the file. -/
theorem Change.directory_cases {s : Tree} {p : Path} {content : ByteArray} {place : List Name}
    (h : s.Change p content place .directory) :
    s.kind place = .directory ∨ Between (s.start p) p.names.dropLast place := by
  generalize hkind : NodeKind.directory = kind at h
  cases h with
  | same => exact Or.inl rfl
  | target => cases hkind
  | staging => cases hkind
  | directory hplace _ => exact Or.inr hplace

/-- A place where an update leaves a file is that of the file or had the same one. -/
theorem Change.file_cases {s : Tree} {p : Path} {content new : ByteArray} {place : List Name}
    (h : s.Change p content place (.file new)) :
    s.kind place = .file new ∨ place = s.start p ++ p.names := by
  generalize hkind : NodeKind.file new = kind at h
  cases h with
  | same => exact Or.inl rfl
  | target hplace _ => exact Or.inr hplace
  | staging => cases hkind
  | directory => cases hkind

/-- An update keeps what is in the way of a file if its staging file is not above that file. -/
theorem update_keeps (tree : Tree) {p q : Path} (hplain : Plain q.names) (hne : q.names ≠ [])
    (habsolute : q.isAbsolute = p.isAbsolute) (hstaging : ¬ q.staging.names <+: p.names)
    (text : String) : tree.Keeps (tree.update q text false).2 p := by
  obtain ⟨hhere, hchange⟩ := update_change tree hplain hne text
  have hstart : tree.start q = tree.start p := start_of_isAbsolute habsolute
  refine ⟨⟨hhere, fun hdirectory => ?_, fun place habove hbelow content hfile => ?_, ?_, ?_⟩, ?_⟩
  · have hplace := hchange (tree.start p)
    rw [hdirectory] at hplace
    refine hplace.directory_cases.resolve_right ?_
    rintro ⟨front, hfront, -, heq⟩
    rw [hstart] at heq
    exact hfront (List.self_eq_append_right.1 heq)
  · refine ((hchange place).of_file hfile ?_).1
    rintro rfl
    rw [hstart, List.prefix_append_right_inj] at hbelow
    exact hstaging (hbelow.trans (List.dropLast_prefix _))
  · exact (hchange _).of_directory
  · exact (hchange _).of_directory
  · exact fun place => (hchange place).of_directory

/-- A file that stands neither at the place of an updated file nor at that of its staging file stays
as it is, and none appears. -/
theorem file_update (tree : Tree) {p : Path} (hplain : Plain p.names) (hne : p.names ≠ [])
    (text : String) {place : List Name} (htarget : place ≠ tree.start p ++ p.names)
    (hstaging : place ≠ tree.start p ++ p.staging.names) (content : ByteArray) :
    (tree.update p text false).2.kind place = .file content ↔ tree.kind place = .file content := by
  have hchange := (tree.update_change hplain hne text).2 place
  constructor
  · intro hfile
    rw [hfile] at hchange
    exact hchange.file_cases.resolve_right htarget
  · intro hfile
    exact (hchange.of_file hfile hstaging).2 htarget

/-- An update keeps a file of other names that does not stand at the place of the staging file. -/
theorem kind_update_of_file (tree : Tree) {p q : Path} (hplain : Plain q.names) (hne : q.names ≠ [])
    (h : q.Spares p) (text : String) {old : ByteArray}
    (hfile : tree.kind (tree.start p ++ p.names) = .file old) :
    (tree.update q text false).2.kind (tree.start p ++ p.names) = .file old := by
  have hstart : tree.start q = tree.start p := start_of_isAbsolute h.absolute
  refine (tree.file_update hplain hne text ?_ ?_ old).2 hfile
  · rw [hstart, Ne, List.append_right_inj]
    exact fun heq => h.names heq.symm
  · rw [hstart, Ne, List.append_right_inj]
    exact fun heq => h.staging (heq ▸ List.prefix_rfl)

/-- A settled file stays settled while a file that spares it is updated. -/
theorem Settled.of_update {tree : Tree} {p q : Path} {content : ByteArray} (hp : Plain p.names)
    (hq : Plain q.names) (hne : q.names ≠ []) (h : q.Spares p) (text : String)
    (hsettled : tree.Settled p content) : (tree.update q text false).2.Settled p content :=
  hsettled.mono hp (tree.update_keeps hq hne h.absolute h.staging text)
    (tree.kind_update_of_file hq hne h text)

/-- The trees differ only by what is written beside a file: the same is in its way, and at its place
and at that of its staging file stands the same. -/
structure Beside (s t : Tree) (p : Path) : Prop where
  hinders : s.Hinders t p
  hindered : t.Hinders s p
  target : t.kind (s.start p ++ p.names) = s.kind (s.start p ++ p.names)
  staging : t.kind (s.start p ++ p.staging.names) = s.kind (s.start p ++ p.staging.names)

/-- Nothing is written beside a file of the same tree. -/
theorem Beside.refl (tree : Tree) (p : Path) : tree.Beside tree p := by
  have hself : tree.Hinders tree p :=
    ⟨rfl, id, fun _ _ _ content h => ⟨content, h⟩, id, id⟩
  exact ⟨hself, hself, rfl, rfl⟩

/-- What stays in the way of a file from tree to tree is in its way in the last one. -/
theorem Hinders.trans {s t u : Tree} {p : Path} (h : s.Hinders t p) (h' : t.Hinders u p) :
    s.Hinders u p := by
  have hstart := start_congr h.here p
  refine ⟨h'.here.trans h.here, fun hu => ?_, fun place habove hbelow content hfile => ?_,
    fun hs => ?_, fun hs => ?_⟩
  · have ht := h'.start
    rw [hstart] at ht
    exact h.start (ht hu)
  · obtain ⟨content', hfile'⟩ := h.above place habove hbelow content hfile
    have ht := h'.above place
    rw [hstart] at ht
    exact ht habove hbelow content' hfile'
  · have ht := h'.target
    rw [hstart] at ht
    exact ht (h.target hs)
  · have ht := h'.staging
    rw [hstart] at ht
    exact ht (h.staging hs)

/-- What is kept from tree to tree is kept in the last one. -/
theorem Keeps.trans {s t u : Tree} {p : Path} (h : s.Keeps t p) (h' : t.Keeps u p) : s.Keeps u p :=
  ⟨h.toHinders.trans h'.toHinders, fun place hplace => h'.directory place (h.directory place hplace)⟩

/-- What is written beside a file twice is written beside it. -/
theorem Beside.trans {s t u : Tree} {p : Path} (h : s.Beside t p) (h' : t.Beside u p) :
    s.Beside u p := by
  obtain ⟨hhinders, hhindered, htarget, hstaging⟩ := h'
  rw [start_congr h.hinders.here] at htarget hstaging
  exact ⟨h.hinders.trans hhinders, hhindered.trans h.hindered, htarget.trans h.target,
    hstaging.trans h.staging⟩

/-- An update of a file leaves the places of other files and of their staging files alone. -/
theorem Change.eq_of_ne {s : Tree} {p : Path} {content : ByteArray} {place : List Name} {kind : NodeKind}
    (h : s.Change p content place kind) (htarget : place ≠ s.start p ++ p.names)
    (hstaging : place ≠ s.start p ++ p.staging.names)
    (hbetween : ¬ Between (s.start p) p.names.dropLast place) : kind = s.kind place := by
  cases h with
  | same => rfl
  | target heq _ => exact absurd heq htarget
  | staging heq _ _ => exact absurd heq hstaging
  | directory heq _ => exact absurd heq hbetween

/-- An update of a file that is apart changes nothing for a file. -/
theorem update_beside (tree : Tree) {p q : Path} (hplain : Plain q.names) (hne : q.names ≠ [])
    (h : p.Apart q) (text : String) : tree.Beside (tree.update q text false).2 p := by
  obtain ⟨hhere, hchange⟩ := update_change tree hplain hne text
  have hstart : tree.start q = tree.start p := start_of_isAbsolute h.absolute
  have hnotBetween : ∀ names : List Name, ¬ names <+: q.names →
      ¬ Between (tree.start q) q.names.dropLast (tree.start p ++ names) := by
    rintro names hnames ⟨front, -, hbelow, heq⟩
    rw [hstart, List.append_right_inj] at heq
    exact hnames (heq ▸ hbelow.trans (List.dropLast_prefix _))
  have hnotAt : ∀ {place names : List Name}, place <+: tree.start p ++ p.names →
      ¬ names <+: p.names → place ≠ tree.start q ++ names := by
    rintro place names hbelow hnames rfl
    rw [hstart, List.prefix_append_right_inj] at hbelow
    exact hnames hbelow
  have htarget : (tree.update q text false).2.kind (tree.start p ++ p.names) =
      tree.kind (tree.start p ++ p.names) :=
    (hchange _).eq_of_ne (hnotAt List.prefix_rfl h.above) (hnotAt List.prefix_rfl h.stagingAbove)
      (hnotBetween _ h.below)
  have hstaging : (tree.update q text false).2.kind (tree.start p ++ p.staging.names) =
      tree.kind (tree.start p ++ p.staging.names) := by
    refine (hchange _).eq_of_ne ?_ ?_ (hnotBetween _ h.stagingBelow)
    · rw [hstart, Ne, List.append_right_inj]
      exact fun heq => h.stagingBelow (heq ▸ List.prefix_rfl)
    · rw [hstart, Ne, List.append_right_inj]
      exact h.staging
  refine ⟨(tree.update_keeps hplain hne h.absolute h.stagingAbove text).toHinders, ?_, htarget,
    hstaging⟩
  have hstart' := start_congr hhere p
  refine ⟨hhere.symm, ?_, ?_, ?_, ?_⟩ <;> rw [hstart']
  · exact (hchange _).of_directory
  · intro place habove hbelow content hfile
    have hplace := hchange place
    rw [hfile] at hplace
    refine ⟨content, hplace.file_cases.resolve_right (hnotAt ?_ h.above)⟩
    exact hbelow.trans ((List.prefix_append_right_inj _).2 (List.dropLast_prefix _))
  · rw [htarget]
    exact id
  · rw [hstaging]
    exact id

/-- No place with at least as many names as a path is above it. -/
theorem not_between_of_length {start names names' : List Name} (h : names.length ≤ names'.length)
    (hne : names ≠ []) : ¬ Between start names.dropLast (start ++ names') := by
  rintro ⟨front, -, hbelow, heq⟩
  rw [List.append_right_inj] at heq
  have hlength := hbelow.length_le
  rw [← heq, List.length_dropLast] at hlength
  have hpos := List.length_pos_iff.2 hne
  omega

/-- A staging file has as many names as its file, and other ones. -/
theorem length_staging_names {p : Path} (hne : p.names ≠ []) :
    p.names.length ≤ p.staging.names.length ∧ p.staging.names ≠ p.names := by
  obtain ⟨front, last, hstaging, -, ⟨-, hnames⟩ | ⟨-, hnames⟩⟩ := Path.names_staging hne
  · rw [hstaging, hnames]
    refine ⟨by simp, ?_⟩
    intro heq
    have hname : Path.stagingName last = last := by simpa using heq
    have hlength := congrArg List.length hname
    simp [Path.stagingName, stagingEnding] at hlength
  · rw [hstaging, hnames]
    simp

/-- An update has the same result before and after files beside it are written: the same is done,
and the same stands at the place of the file and at that of its staging file afterwards. -/
theorem Beside.update {s t : Tree} {p : Path} (hplain : Plain p.names) (hne : p.names ≠ [])
    (h : s.Beside t p) (text : String) :
    (t.update p text false).1.toOption = (s.update p text false).1.toOption ∧
      (t.update p text false).2.kind (s.start p ++ p.names) =
        (s.update p text false).2.kind (s.start p ++ p.names) ∧
      (t.update p text false).2.kind (s.start p ++ p.staging.names) =
        (s.update p text false).2.kind (s.start p ++ p.staging.names) := by
  have hstart := start_congr h.hinders.here p
  obtain ⟨hlength, hstaging⟩ := length_staging_names hne
  have hholds : t.Holds p text.toUTF8 ↔ s.Holds p text.toUTF8 := by
    constructor
    · refine Holds.mono hplain h.hinders.here.symm ?_
      intro old hold
      rwa [hstart, ← h.target, ← hstart]
    · exact Holds.mono hplain h.hinders.here fun old hold => h.target.trans hold
  have hwritable : t.Writable p ↔ s.Writable p :=
    ⟨Writable.of_hinders h.hinders, Writable.of_hinders h.hindered⟩
  have hwrittenKinds : ∀ {u u' : Tree}, u.start p = s.start p → u.Written u' p text.toUTF8 →
      u'.kind (s.start p ++ p.names) = .file text.toUTF8 ∧
        u'.kind (s.start p ++ p.staging.names) = .missing := by
    intro u u' hu hwritten
    rw [hwritten.kind, hwritten.kind, hu, if_pos rfl, if_neg (by simpa using hstaging), if_pos rfl]
    exact ⟨rfl, rfl⟩
  have hfailedKinds : ∀ {u u' : Tree}, u.start p = s.start p → u.Failed u' p →
      u'.kind (s.start p ++ p.names) = u.kind (s.start p ++ p.names) ∧
        u'.kind (s.start p ++ p.staging.names) = u.kind (s.start p ++ p.staging.names) := by
    intro u u' hu hfailed
    rw [← hu]
    exact ⟨(hfailed.grows.kind _).resolve_right fun hmade =>
        not_between_of_length (Nat.le_refl _) hne hmade.1,
      (hfailed.grows.kind _).resolve_right fun hmade =>
        not_between_of_length hlength hne hmade.1⟩
  -- both trees agree on what decides about an update, so only equal effects are left
  rcases update_cases s hplain hne text with
    ⟨hs, hupdate⟩ | ⟨hs, ⟨hws, s', hupdate, hwritten⟩ | ⟨hws, error, s', hupdate, hfailed⟩⟩ <;>
  rcases update_cases t hplain hne text with
    ⟨ht, hupdate'⟩ | ⟨ht, ⟨hwt, t', hupdate', hwritten'⟩ | ⟨hwt, error', t', hupdate', hfailed'⟩⟩
  · rw [hupdate, hupdate']
    exact ⟨rfl, h.target, h.staging⟩
  · exact absurd (hholds.2 hs) ht
  · exact absurd (hholds.2 hs) ht
  · exact absurd (hholds.1 ht) hs
  · rw [hupdate, hupdate']
    obtain ⟨hkind, hkindStaging⟩ := hwrittenKinds rfl hwritten
    obtain ⟨hkind', hkindStaging'⟩ := hwrittenKinds hstart hwritten'
    exact ⟨rfl, hkind'.trans hkind.symm, hkindStaging'.trans hkindStaging.symm⟩
  · exact absurd (hwritable.2 hws) hwt
  · exact absurd (hholds.1 ht) hs
  · exact absurd (hwritable.1 hwt) hws
  · rw [hupdate, hupdate']
    obtain ⟨hkind, hkindStaging⟩ := hfailedKinds rfl hfailed
    obtain ⟨hkind', hkindStaging'⟩ := hfailedKinds hstart hfailed'
    exact ⟨rfl, hkind'.trans (h.target.trans hkind.symm),
      hkindStaging'.trans (h.staging.trans hkindStaging.symm)⟩

end Tree

/-! ## Files below one root -/

namespace Path

variable {root d e : Path}

/-- A path that ends in a name behind a root has a name of its own. -/
theorem names_ne_nil_of_join {q : Path} (hq : q.isAbsolute = false)
    (h : (root.join q).EndsInName) : q.names ≠ [] := by
  intro hnil
  obtain ⟨hslash, hlast, hne⟩ := h
  have hnames := names_join root hq
  rw [hnil, List.append_nil] at hnames
  by_cases hpieces : q.pieces = []
  -- the joined path ends in a slash, or nothing is joined to the empty path
  · by_cases hempty : q.text = ""
    · rcases toList_join (p := root) hq with ⟨htext, hroot⟩ | htext
      · rcases hroot with hroot | hroot
        · simp [names, hroot] at hnames
          exact hne hnames
        · rw [endsInSlash, htext, hempty] at hslash
          rw [endsInSlash] at hroot
          simp [hroot] at hslash
      · rw [endsInSlash, htext, hempty] at hslash
        simp at hslash
    · have hend := Tree.endsInSlash_of_pieces_eq_nil hpieces hempty
      obtain ⟨front, hfront⟩ := List.getLast?_eq_some_iff.1 (by simpa [endsInSlash] using hend)
      rcases toList_join (p := root) hq with ⟨htext, -⟩ | htext
      · rw [endsInSlash, htext, hfront, ← List.append_assoc, List.getLast?_concat] at hslash
        simp at hslash
      · rw [endsInSlash, htext, hfront, ← List.cons_append, ← List.append_assoc,
          List.getLast?_concat] at hslash
        simp at hslash
  -- the last piece is a dot and no name
  · obtain ⟨front, last, hfront⟩ := (List.eq_nil_or_concat q.pieces).resolve_left hpieces
    rw [List.concat_eq_append] at hfront
    have hdot : last = ['.'] :=
      (eq_dot_or_mem_names (p := q) (by simp [hfront])).resolve_right (by simp [hnil])
    rw [pieces_join root hq, hfront, ← List.append_assoc, List.getLast?_concat] at hlast
    exact ne_dot_of_mem_names (List.mem_of_getLast? hlast.symm) hdot

/-- The staging file of a file below a root is found from the root, too. -/
theorem staging_join (root : Path) (hd : d.isAbsolute = false) (hne : d.names ≠ []) :
    d.staging.isAbsolute = false ∧ (root.join d).staging = root.join d.staging := by
  have htext : d.text ≠ "" := by
    intro htext
    simp [names, htext] at hne
  have hstaging : d.staging.isAbsolute = false := by rw [isAbsolute_staging htext, hd]
  refine ⟨hstaging, ?_⟩
  unfold join
  simp only [hd, hstaging, Bool.false_eq_true, if_false]
  split <;> simp [staging, String.append_assoc]

/-- The staging file of a path below a root has its names behind those of the root. -/
theorem names_staging_join (root : Path) (hd : d.isAbsolute = false) (hne : d.names ≠ []) :
    (root.join d).staging.names = root.names ++ d.staging.names := by
  obtain ⟨hstaging, hjoin⟩ := staging_join root hd hne
  rw [hjoin, names_join root hstaging]

/-- Staging names have their ending. -/
theorem suffix_stagingName (name : Name) : stagingEnding.toList <:+ stagingName name :=
  List.suffix_append _ _

/-- A staging file is not above a file whose names do not end like that of a staging file. -/
theorem not_staging_prefix (hne : d.names ≠ []) (hunstaged : e.isUnstaged = true) :
    ¬ d.staging.names <+: e.names := by
  intro hbelow
  obtain ⟨front, last, hstaging, -⟩ := names_staging hne
  rw [hstaging] at hbelow
  exact not_suffix_of_isUnstaged hunstaged _ (hbelow.subset (by simp)) (suffix_stagingName last)

/-- Below one root, the staging file of a path does not lie at or above a path that is not
staged. -/
theorem not_staging_above (root : Path) (hd : d.isAbsolute = false) (hne : d.names ≠ [])
    (he : e.isAbsolute = false) (hunstaged : e.isUnstaged = true) :
    ¬ (root.join d).staging.names <+: (root.join e).names := by
  rw [names_staging_join root hd hne, names_join root he, List.prefix_append_right_inj]
  exact not_staging_prefix hne hunstaged

/-- Files below one root are apart if their names below it are not nested and none of them ends like
that of a staging file. -/
theorem apart_join (root : Path) (hd : d.isAbsolute = false) (he : e.isAbsolute = false)
    (hdne : d.names ≠ []) (hene : e.names ≠ []) (hdunstaged : d.isUnstaged = true)
    (heunstaged : e.isUnstaged = true) (hbelow : ¬ d.names <+: e.names) (habove : ¬ e.names <+: d.names) :
    (root.join d).Apart (root.join e) := by
  refine ⟨?_, ?_, ?_, not_staging_above root he hene hd hdunstaged,
    not_staging_above root hd hdne he heunstaged, fun heq => ?_⟩
  · rw [isAbsolute_join root hd, isAbsolute_join root he]
  · rwa [names_join root hd, names_join root he, List.prefix_append_right_inj]
  · rwa [names_join root hd, names_join root he, List.prefix_append_right_inj]
  -- equal staging files belong to equal files, or one lies at the staging file of the other
  · rw [names_staging_join root hd hdne, names_staging_join root he hene,
      List.append_right_inj] at heq
    obtain ⟨front, last, hstaging, -, hcases⟩ := names_staging hdne
    obtain ⟨front', last', hstaging', -, hcases'⟩ := names_staging hene
    rw [hstaging, hstaging'] at heq
    obtain ⟨rfl, hlast⟩ := List.append_inj' heq rfl
    have hlast : stagingName last = stagingName last' := (List.cons.inj hlast).1
    obtain rfl : last = last' := List.append_cancel_right hlast
    rcases hcases with ⟨-, hnames⟩ | ⟨-, hnames⟩ <;>
      rcases hcases' with ⟨-, hnames'⟩ | ⟨-, hnames'⟩
    · exact hbelow ((hnames.trans hnames'.symm) ▸ List.prefix_rfl)
    · rw [hnames, hnames'] at habove
      exact habove (List.prefix_append _ _)
    · rw [hnames, hnames'] at hbelow
      exact hbelow (List.prefix_append _ _)
    · exact hbelow ((hnames.trans hnames'.symm) ▸ List.prefix_rfl)

end Path

namespace Tree

variable {root d : Path}

/-- A file below a root has its place straight below that of the root, wherever that is. -/
theorem placeOf_join (tree : Tree) (root : Path) (hd : d.isAbsolute = false)
    (hplain : Plain d.names) : tree.placeOf (root.join d) = tree.placeOf root ++ d.names := by
  have hstart : tree.start (root.join d) = tree.start root :=
    start_of_isAbsolute (Path.isAbsolute_join root hd)
  rw [placeOf, placeOf, Path.names_join root hd, hstart, List.foldl_append, foldl_climb hplain]

/-- So has its staging file. -/
theorem placeOf_staging_join (tree : Tree) (root : Path) (hd : d.isAbsolute = false)
    (hplain : Plain d.names) (hne : d.names ≠ []) :
    tree.placeOf (root.join d).staging = tree.placeOf root ++ d.staging.names := by
  obtain ⟨hstaging, hjoin⟩ := Path.staging_join root hd hne
  rw [hjoin, placeOf_join tree root hstaging (plain_staging hplain hne)]

end Tree

end Vendoring
