import Vendoring.Proofs.Tree.Making

/-!
# Writing through the staging file

The staging file of a path that ends in a name stands in the same directory (`placeOf_staging`).
What is written by a path is found by it and nothing else changes (`write_spec`); what is moved
stands at its new place and not at its old one (`moveFile_spec`). So a file whose staging file can
be written is replaced and its staging file is gone (`writeStaged_of_ok`), and if the directory of a
path is there already, no other one is made (`makeParent_of_directoryOf`).
-/

namespace Vendoring.Tree

/-! ## Places of staging files -/

/-- A staging file starts from where its file does. -/
theorem start_staging (tree : Tree) {p : Path} (h : p.names ≠ []) :
    tree.start p.staging = tree.start p := by
  have htext : p.text ≠ "" := by
    intro htext
    simp [Path.names, htext] at h
  unfold start
  rw [Path.isAbsolute_staging htext]

/-- A name fits if that of its staging file does. -/
theorem tooLong_of_staging {name : Name} (h : tooLong (Path.stagingName name) = false) :
    tooLong name = false := by
  unfold tooLong at h ⊢
  rw [decide_eq_false_iff_not, Nat.not_lt] at h ⊢
  rw [Path.stagingName, String.ofList_append, String.utf8ByteSize_append] at h
  omega

/-- Names fit if they do with that of the staging file at their end. -/
theorem fit_of_staging {front : List Name} {last : Name}
    (h : Fit (front ++ [Path.stagingName last])) : Fit (front ++ [last]) := by
  obtain ⟨hfront, hlast⟩ := fit_concat.1 h
  exact fit_concat.2 ⟨hfront, tooLong_of_staging hlast⟩

/-- The name of a staging file is not that of its file. -/
theorem stagingName_ne (name : Name) : name ≠ Path.stagingName name := by
  intro h
  have hlength := congrArg List.length h
  rw [Path.stagingName, List.length_append] at hlength
  simp [stagingEnding] at hlength

/-- The names of a path that ends in one and of its staging file, of which only the last differ. -/
theorem exists_names {p : Path} (hend : p.EndsInName) :
    ∃ front last, p.names = front ++ [last] ∧
      p.staging.names = front ++ [Path.stagingName last] ∧
      p.staging.pieces.getLast? = p.staging.names.getLast? := by
  obtain ⟨front, last, hstaging, hlast, ⟨-, hnames⟩ | ⟨hno, -⟩⟩ := Path.names_staging hend.2.2
  · exact ⟨front, last, hnames, hstaging, by rw [hlast, hstaging, List.getLast?_concat]⟩
  · exact absurd hend hno

/-- A staging file goes down where its file does. -/
theorem plain_staging {p : Path} (hplain : Plain p.names) (hne : p.names ≠ []) :
    Plain p.staging.names := by
  obtain ⟨front, last, hstaging, -, hnames⟩ := Path.names_staging hne
  have hfront : Plain front := by
    rcases hnames with ⟨-, hnames⟩ | ⟨-, hnames⟩
    · exact (plain_append.1 (hnames ▸ hplain)).1
    · exact hnames ▸ hplain
  rw [hstaging]
  exact plain_concat.2 ⟨hfront, isReference_eq_false.2 (Path.stagingName_ne_reference last)⟩

/-- The staging file of a path that ends in a name is looked up in the directory of the path. -/
theorem directoryOf_staging (tree : Tree) {p : Path} (hend : p.EndsInName) {last : Name}
    (hlast : p.pieces.getLast? = some last) :
    p.staging.pieces.getLast? = some (Path.stagingName last) ∧
      tree.directoryOf p.staging = tree.directoryOf p := by
  obtain ⟨front, name, hnames, hstaging, hendStaging⟩ := exists_names hend
  obtain ⟨hlast', hdir⟩ : p.pieces.getLast? = some name ∧
      tree.directoryOf p = tree.enter (tree.start p) front := directoryOf_eq hend.2.1 hnames
  obtain rfl : name = last := Option.some.inj (hlast'.symm.trans hlast)
  obtain ⟨hlastStaging, hdirStaging⟩ :
      p.staging.pieces.getLast? = some (Path.stagingName name) ∧
      tree.directoryOf p.staging = tree.enter (tree.start p.staging) front :=
    directoryOf_eq hendStaging hstaging
  rw [start_staging tree hend.2.2, ← hdir] at hdirStaging
  exact ⟨hlastStaging, hdirStaging⟩

/-- The staging file of a path that ends in a name stands beside it. -/
theorem placeOf_staging {tree : Tree} {p : Path} {dir : List Name} {last : Name}
    (hend : p.EndsInName) (hlast : p.pieces.getLast? = some last)
    (hdir : tree.directoryOf p = .ok dir) :
    tree.placeOf p.staging = dir ++ [Path.stagingName last] := by
  obtain ⟨hlastStaging, hdirStaging⟩ := directoryOf_staging tree hend hlast
  have href : isReference (Path.stagingName last) = false :=
    isReference_eq_false.2 (Path.stagingName_ne_reference last)
  exact placeOf_eq hlastStaging href (hdirStaging.trans hdir)

/-! ## Writing and moving -/

/-- What is written by a path is found by it; nothing else changes. -/
theorem write_spec {tree written : Tree} {p : Path} {content : ByteArray}
    (h : tree.write p content = .ok written) :
    written.here = tree.here ∧ tree.placeOf p ≠ [] ∧
      tree.kind (tree.placeOf p) ≠ .directory ∧
      written.locate p = .ok (tree.placeOf p) ∧
      ∀ place, written.kind place =
        if place = tree.placeOf p then .file content else tree.kind place := by
  obtain ⟨hcheck, hslash, dir, last, hlast, href, hdir, hlong, hkind, rfl⟩ := write_eq_ok h
  have hdirectory := (enter_eq_ok hdir).2
  have hkinds := kind_set_file content hdirectory hkind
  have hdir' : (tree.set (dir ++ [last]) (.file content)).directoryOf p = .ok dir := by
    refine enter_eq_ok_of_directories (fun place hplace => ?_) hdir
    rw [hkinds, if_neg (by rintro rfl; exact hkind hplace), hplace]
  rw [placeOf_eq hlast href hdir]
  refine ⟨rfl, by simp, hkind, ?_, hkinds⟩
  obtain ⟨hdot, hup⟩ := isReference_eq_false.1 href
  rw [locate_eq, atEntry_eq hcheck hlast hdir', if_neg hdot, if_neg hup, hlong, hkinds, if_pos rfl,
    hslash]
  rfl

/-- What is moved stands at its new place and no longer at its old one; nothing else changes. -/
theorem moveFile_spec {tree moved : Tree} {source target : Path} {origin : List Name}
    {content : ByteArray} (h : tree.moveFile source target = .ok moved)
    (horigin : tree.locate source = .ok origin) (hne : origin ≠ [])
    (hfile : tree.kind origin = .file content) :
    moved.here = tree.here ∧
      ∀ place, moved.kind place =
        if place = tree.placeOf target then .file content
        else if place = origin then .missing else tree.kind place := by
  obtain ⟨origin', node, dir, last, horigin', hnode, hlast, href, hdir, hkind, rfl⟩ :=
    moveFile_eq_ok h
  obtain rfl : origin' = origin := Except.ok.inj (horigin'.symm.trans horigin)
  obtain rfl : node = .file content := Option.some.inj (hnode.symm.trans (kind_eq_file.1 hfile))
  rw [placeOf_eq hlast href hdir]
  exact ⟨rfl, kind_move hfile hne (enter_eq_ok hdir).2 hkind⟩

/-- A staging file that was written can be moved over its file unless a directory is there. -/
theorem moveFile_of_write {tree staged : Tree} {p : Path} {content : ByteArray} {dir : List Name}
    {last : Name} (hwrite : tree.write p.staging content = .ok staged)
    (hcheck : checkPath p = .ok ()) (hend : p.EndsInName) (hlast : p.pieces.getLast? = some last)
    (href : isReference last = false) (hdir : tree.directoryOf p = .ok dir)
    (htarget : tree.kind (dir ++ [last]) ≠ .directory) :
    ∃ moved, staged.moveFile p.staging p = .ok moved := by
  obtain ⟨hhere, -, hstaging, hlocate, hkinds⟩ := write_spec hwrite
  obtain ⟨-, -, -, name, hname, -, -, hlong, -⟩ := write_eq_ok hwrite
  obtain rfl : name = Path.stagingName last :=
    Option.some.inj (hname.symm.trans (directoryOf_staging tree hend hlast).1)
  have hplace := placeOf_staging hend hlast hdir
  rw [hplace] at hstaging hlocate hkinds
  have hdir' : staged.directoryOf p = .ok dir := by
    rw [directoryOf, start_congr hhere]
    refine enter_eq_ok_of_directories (fun place hplace => ?_) hdir
    rw [hkinds, if_neg (by rintro rfl; exact hstaging hplace), hplace]
  have htarget' : staged.kind (dir ++ [last]) ≠ .directory := by
    rw [hkinds, if_neg (by simpa using stagingName_ne last)]
    exact htarget
  have horigin : staged.kind (dir ++ [Path.stagingName last]) = .file content := by
    rw [hkinds, if_pos rfl]
  refine ⟨(staged.without (dir ++ [Path.stagingName last])).set (dir ++ [last]) (.file content), ?_⟩
  rw [moveFile_eq, hlocate, ok_bind, atEntry_eq hcheck hlast hdir', href, tooLong_of_staging hlong,
    hend.1, kind_eq_file.1 horigin]
  simp only [Bool.false_eq_true, if_false, if_neg htarget']

/-- With its directory there, a file whose staging file was written is replaced, and its staging
file is gone. -/
theorem writeStaged_of_write {tree staged : Tree} {p : Path} {content : ByteArray} {dir : List Name}
    {last : Name} (hwrite : tree.write p.staging content = .ok staged)
    (hcheck : checkPath p = .ok ()) (hend : p.EndsInName) (hlast : p.pieces.getLast? = some last)
    (href : isReference last = false) (hdir : tree.directoryOf p = .ok dir)
    (htarget : tree.kind (dir ++ [last]) ≠ .directory) :
    ∃ t, staged.moveFile p.staging p = .ok t ∧ t.here = tree.here ∧
      ∀ place, t.kind place =
        if place = dir ++ [last] then .file content
        else if place = dir ++ [Path.stagingName last] then .missing
        else tree.kind place := by
  obtain ⟨moved, hmove⟩ := moveFile_of_write hwrite hcheck hend hlast href hdir htarget
  obtain ⟨hhere, hne, -, hlocate, hkinds⟩ := write_spec hwrite
  obtain ⟨hhere', hkinds'⟩ := moveFile_spec hmove hlocate hne (by rw [hkinds, if_pos rfl])
  rw [placeOf_congr hhere, placeOf_eq hlast href hdir, placeOf_staging hend hlast hdir] at hkinds'
  rw [placeOf_staging hend hlast hdir] at hkinds
  refine ⟨moved, hmove, hhere'.trans hhere, ?_⟩
  intro place
  rw [hkinds', hkinds]
  by_cases hplace : place = dir ++ [Path.stagingName last]
  · simp only [if_pos hplace]
  · simp only [if_neg hplace]

/-- With its directory there, a file whose staging file can be written is written, and its staging
file is gone. -/
theorem writeStaged_of_ok {tree : Tree} {p : Path} {dir : List Name} {last : Name}
    (content : ByteArray) (hcheck : checkPath p = .ok ())
    (hstagingPath : checkPath p.staging = .ok ()) (hend : p.EndsInName)
    (hlast : p.pieces.getLast? = some last) (href : isReference last = false)
    (hdir : tree.directoryOf p = .ok dir) (hfit : tooLong (Path.stagingName last) = false)
    (htarget : tree.kind (dir ++ [last]) ≠ .directory)
    (hstaging : tree.kind (dir ++ [Path.stagingName last]) ≠ .directory) :
    ∃ t, tree.writeStaged p content = (.ok (), t) ∧ t.here = tree.here ∧
      ∀ place, t.kind place =
        if place = dir ++ [last] then .file content
        else if place = dir ++ [Path.stagingName last] then .missing
        else tree.kind place := by
  obtain ⟨hlastStaging, hdirStaging⟩ := directoryOf_staging tree hend hlast
  have hrefStaging : isReference (Path.stagingName last) = false :=
    isReference_eq_false.2 (Path.stagingName_ne_reference last)
  have hwrite : tree.write p.staging content =
      .ok (tree.set (dir ++ [Path.stagingName last]) (.file content)) := by
    rw [write_eq, atEntry_eq hstagingPath hlastStaging (hdirStaging.trans hdir), hrefStaging,
      Path.endsInSlash_staging, hfit]
    simp only [Bool.or_self, Bool.false_eq_true, if_false, if_neg hstaging]
  obtain ⟨t, hmove, hhere, hkinds⟩ :=
    writeStaged_of_write hwrite hcheck hend hlast href hdir htarget
  refine ⟨t, ?_, hhere, hkinds⟩
  unfold writeStaged
  rw [hwrite]
  simp only [hmove]

/-- With its directory there, a file whose staging file cannot be written stays as it is. -/
theorem writeStaged_of_error {tree : Tree} {p : Path} {content : ByteArray} {cause : IoError}
    (h : tree.write p.staging content = .error cause) :
    tree.writeStaged p content = (.error ⟨p.staging, cause⟩, tree) := by
  unfold writeStaged
  rw [h]

/-! ## Directories that are there -/

/-- Above a path whose directory is there no directory is made. -/
theorem makeParent_of_directoryOf {tree : Tree} {p : Path} {dir : List Name} {last : Name}
    (hcheck : checkPath p = .ok ()) (hlast : p.pieces.getLast? = some last)
    (href : isReference last = false) (hdir : tree.directoryOf p = .ok dir) :
    tree.makeParent p = (.ok (), tree) := by
  have hnames := names_of_getLast? hlast href
  obtain ⟨above, hparent⟩ := Path.exists_parent? (p := p) (by simp [hnames])
  obtain ⟨habove, habsolute, htext, -⟩ := Path.parent?_eq_some hparent
  rw [hnames, List.dropLast_concat] at habove
  have hcheckAbove := checkPath_of_text hcheck htext
  have henter : tree.enter (tree.start above) above.pieces = .ok dir := by
    rw [enter_pieces, habove, enter_filter, start_of_isAbsolute habsolute]
    exact hdir
  unfold makeParent
  rw [hparent]
  simp only [makeDirectories_of_enter hcheckAbove henter]

end Vendoring.Tree
