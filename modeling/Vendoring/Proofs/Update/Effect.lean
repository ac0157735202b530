import Vendoring.Proofs.Update.Staging

/-!
# The effect of an update

An update by a plain path has one of three effects (`update_cases`). The file already has the digest
of the new bytes, and nothing happens. Or the file is writable, which is told by what stands on the
way to it and beside it, and then it has the new bytes, its staging file is gone and the directories
above it are there. Or it is not writable, and then nothing but directories above it can be new; a
second update that fails makes no more of them.

What an update of any path answers before it makes anything is told by the old file alone, and a dry
update goes no further (`update_dry_outcomes`).
-/

namespace Vendoring.Tree

/-- The file at a path has the digest of the given bytes. -/
def Holds (tree : Tree) (p : Path) (content : ByteArray) : Prop :=
  ∃ old, tree.read p = .ok old ∧ Digest.ofContent old = Digest.ofContent content

/-- Nothing keeps an update by a plain path from writing the file: neither the paths nor the names
are too long, no file is in the way, and no directory stands in place of the file or its staging
file. -/
structure Writable (tree : Tree) (p : Path) : Prop where
  path : checkPath p = .ok ()
  stagingPath : checkPath p.staging = .ok ()
  ending : p.EndsInName
  fit : Fit p.staging.names
  above : tree.Open (tree.start p) p.names.dropLast
  target : tree.kind (tree.start p ++ p.names) ≠ .directory
  staging : tree.kind (tree.start p ++ p.staging.names) ≠ .directory

/-- No directory is missing above a path, or none can be made there. -/
def Stuck (tree : Tree) (p : Path) : Prop :=
  checkPath p = .ok () → tree.kind (tree.start p) = .directory →
    tree.enter (tree.start p) p.names.dropLast ≠ .error .notFound

/-- The second tree is the first one with a file written by a plain path. -/
structure Written (s t : Tree) (p : Path) (content : ByteArray) : Prop where
  here : t.here = s.here
  kind : ∀ place, t.kind place =
    if place = s.start p ++ p.names then .file content
    else if place = s.start p ++ p.staging.names then .missing
    else if s.start p <+: place ∧ place <+: s.start p ++ p.names.dropLast then .directory
    else s.kind place

/-- The places between a start and a place below it, the last one included. -/
def Between (start names place : List Name) : Prop :=
  ∃ front, front ≠ [] ∧ front <+: names ∧ place = start ++ front

/-! ## The digest of the old file -/

/-- The digest of a file that can be read is that of its bytes. -/
theorem digest?_of_read {tree : Tree} {p : Path} {old : ByteArray} (h : tree.read p = .ok old) :
    tree.digest? p = .ok (some (Digest.ofContent old)) := by
  unfold digest?
  rw [h]

/-- A file that is missing has no digest, which is no failure. -/
theorem digest?_of_missing {tree : Tree} {p : Path} (h : tree.read p = .error .notFound) :
    tree.digest? p = .ok none := by
  unfold digest?
  rw [h]

/-- A file that cannot be read, though it is not missing, has its failure in place of a digest. -/
theorem digest?_of_error {tree : Tree} {p : Path} {cause : IoError}
    (h : tree.read p = .error cause) (hne : cause ≠ .notFound) :
    tree.digest? p = .error ⟨p, cause⟩ := by
  unfold digest?
  rw [h]
  split
  · rename_i heq
    cases heq
  · rename_i heq
    exact absurd (Except.error.inj heq) hne
  · rename_i heq
    rw [Except.error.inj heq]

/-- What reading the old file comes to. -/
theorem read_cases (tree : Tree) (p : Path) :
    ((∃ old, tree.read p = .ok old) ∨ tree.read p = .error .notFound) ∨
      ∃ cause, tree.read p = .error cause ∧ cause ≠ .notFound := by
  cases hread : tree.read p with
  | ok old => exact Or.inl (Or.inl ⟨old, rfl⟩)
  | error cause =>
      by_cases hcause : cause = .notFound
      · exact Or.inl (Or.inr (hcause ▸ rfl))
      · exact Or.inr ⟨cause, rfl, hcause⟩

/-! ## Updates that are told by the old file -/

/-- A dry update does nothing. -/
theorem update_dry (tree : Tree) (p : Path) (text : String) : (tree.update p text true).2 = tree := by
  unfold update
  split
  · rfl
  · split <;> rfl

/-- An update with bytes of the digest that the file has does nothing, be it a dry one or not. -/
theorem update_of_holds {tree : Tree} {p : Path} {text : String} (h : tree.Holds p text.toUTF8)
    (dryRun : Bool) : tree.update p text dryRun = (.ok .unchanged, tree) := by
  obtain ⟨old, hread, hdigest⟩ := h
  unfold update
  rw [digest?_of_read hread]
  simp [hdigest]

/-- An update of a file that cannot be read, though it is not missing, fails and does nothing. -/
theorem update_of_failed {tree : Tree} {p : Path} {cause : IoError}
    (h : tree.read p = .error cause) (hcause : cause ≠ .notFound) (text : String) (dryRun : Bool) :
    tree.update p text dryRun = (.error ⟨p, cause⟩, tree) := by
  unfold update
  rw [digest?_of_error h hcause]

/-- A dry update of a file that is there or missing tells whether the file would be written. -/
theorem update_rehearsed {tree : Tree} {p : Path} {text : String}
    (hread : (∃ old, tree.read p = .ok old) ∨ tree.read p = .error .notFound)
    (h : ¬ tree.Holds p text.toUTF8) : (tree.update p text true).1 = .ok .wouldWrite := by
  unfold update
  rcases hread with ⟨old, hread⟩ | hread
  · have hchanged : Digest.ofContent old ≠ Digest.ofContent text.toUTF8 := fun heq =>
      h ⟨old, hread, heq⟩
    rw [digest?_of_read hread]
    simp only [Option.some.injEq, if_neg hchanged, if_true]
  · rw [digest?_of_missing hread]
    rfl

/-- What a dry update comes to. -/
theorem update_dry_outcomes (tree : Tree) (p : Path) (text : String) :
    tree.Holds p text.toUTF8 ∧ tree.update p text true = (.ok .unchanged, tree) ∨
      ¬ tree.Holds p text.toUTF8 ∧ (tree.update p text true = (.ok .wouldWrite, tree) ∨
        ∃ error, tree.update p text true = (.error error, tree)) := by
  by_cases hholds : tree.Holds p text.toUTF8
  · exact Or.inl ⟨hholds, update_of_holds hholds true⟩
  refine Or.inr ⟨hholds, ?_⟩
  rcases tree.read_cases p with hread | ⟨cause, hread, hcause⟩
  · exact Or.inl (Prod.ext (update_rehearsed hread hholds) (update_dry tree p text))
  · exact Or.inr ⟨_, update_of_failed hread hcause text true⟩

/-! ## The directories above -/

/-- A path with names has a last piece. -/
theorem exists_lastPiece {p : Path} (hne : p.names ≠ []) : ∃ last, p.pieces.getLast? = some last := by
  cases hlast : p.pieces.getLast? with
  | none =>
      rw [Path.names_eq_filter, List.getLast?_eq_none_iff.1 hlast] at hne
      exact absurd rfl hne
  | some last => exact ⟨last, rfl⟩

/-- The directory of a path is missing if one above its last name is. -/
theorem directoryOf_of_missing {tree : Tree} {p : Path} (hne : p.names ≠ [])
    (h : tree.enter (tree.start p) p.names.dropLast = .error .notFound) :
    tree.directoryOf p = .error .notFound := by
  obtain ⟨last, hlast⟩ := exists_lastPiece hne
  obtain ⟨front, hpieces⟩ := List.getLast?_eq_some_iff.1 hlast
  rw [directoryOf, hpieces, List.dropLast_concat, ← enter_filter]
  by_cases hdot : last = ['.']
  · have hnames : p.names = front.filter (· ≠ ['.']) := by
      rw [Path.names_eq_filter, hpieces, List.filter_append, hdot]
      simp
    obtain ⟨above, name, habove⟩ := Path.exists_lastName hne
    rw [habove, List.dropLast_concat] at h
    rw [← hnames, habove, enter_append, h]
    rfl
  · have hnames : p.names = front.filter (· ≠ ['.']) ++ [last] := by
      rw [Path.names_eq_filter, hpieces, List.filter_append,
        List.filter_cons_of_pos (by simpa using hdot), List.filter_nil]
    rwa [hnames, List.dropLast_concat] at h

/-- A file whose directory cannot be entered cannot be read for the same cause. -/
theorem read_of_directoryOf {tree : Tree} {p : Path} {cause : IoError}
    (hcheck : checkPath p = .ok ()) (hne : p.names ≠ [])
    (h : tree.directoryOf p = .error cause) : tree.read p = .error cause := by
  obtain ⟨last, hlast⟩ := exists_lastPiece hne
  rw [read_eq]
  unfold atEntry
  simp only [hcheck, hlast, h]

/-- What making the directories above a plain path does. -/
theorem makeParent_cases (tree : Tree) {p : Path} (hplain : Plain p.names) (hne : p.names ≠ [])
    (hcheck : checkPath p = .ok ()) :
    tree.Grows (tree.makeParent p).2 (Between (tree.start p) p.names.dropLast) ∧
      (tree.kind (tree.start p) ≠ .directory → (tree.makeParent p).2 = tree) ∧
      (tree.kind (tree.start p) = .directory →
        ((tree.makeParent p).1 = .ok () ↔ tree.Open (tree.start p) p.names.dropLast) ∧
        (tree.makeParent p).2.enter (tree.start p) p.names.dropLast ≠ .error .notFound ∧
        (tree.enter (tree.start p) p.names.dropLast ≠ .error .notFound →
          (tree.makeParent p).2 = tree)) := by
  obtain ⟨above, hparent, hnames, hstart, hmakeable⟩ := exists_above hplain hcheck hne
  have hmade : (tree.makeParent p).2 = (tree.makeDirectories above).2 ∧
      ((tree.makeParent p).1 = .ok () ↔ (tree.makeDirectories above).1 = .ok ()) := by
    cases hmake : tree.makeDirectories above with
    | mk result left => cases result <;> simp [makeParent, hparent, hmake]
  rw [hmade.1, hmade.2, ← hnames, ← hstart]
  refine ⟨?_, makeDirectories_of_start, ?_⟩
  · refine (makeDirectories_grows tree above).mono ?_
    rintro place ⟨front, hfront, hbelow, rfl⟩
    refine ⟨front, hfront, hbelow, foldl_climb (fun name hname => ?_) _⟩
    exact hmakeable.plain name (hbelow.subset hname)
  · intro hdirectory
    have hmakes := makeDirectories_of_plain hmakeable hdirectory
    exact ⟨hmakes.ok, hmakes.left, hmakes.kept⟩

/-! ## What can be read -/

/-- A directory is not read. -/
theorem read_of_enter {tree : Tree} {p : Path} {dir : List Name} (hplain : Plain p.names)
    (hne : p.names ≠ []) (hcheck : checkPath p = .ok ())
    (h : tree.enter (tree.start p) p.names = .ok dir) : tree.read p = .error .isADirectory := by
  obtain ⟨last, hlast⟩ := exists_lastPiece hne
  by_cases href : isReference last = true
  · have hnames : p.pieces.dropLast.filter (· ≠ ['.']) = p.names := by
      obtain ⟨front, hpieces⟩ := List.getLast?_eq_some_iff.1 hlast
      have hdot : last = ['.'] := by
        refine Classical.byContradiction ?_
        intro hdot
        have hmem : last ∈ p.names := by
          refine (Path.eq_dot_or_mem_names ?_).resolve_left hdot
          simp [hpieces]
        simp [hplain last hmem] at href
      rw [Path.names_eq_filter, hpieces, hdot, List.filter_append]
      simp
    have hdir : tree.directoryOf p = .ok dir := by
      rw [directoryOf, ← enter_filter, hnames, h]
    rw [read_eq, atEntry_eq hcheck hlast hdir, if_pos href]
  · rw [Bool.not_eq_true] at href
    have hnames := names_of_getLast? hlast href
    obtain ⟨-, hfit, hkind⟩ := (enter_eq_ok_iff hplain).1 h
    have hend : p.pieces.getLast? = p.names.getLast? := by
      rw [hlast, hnames, List.getLast?_concat]
    rw [hnames] at hplain hfit hkind
    have hdir : tree.directoryOf p =
        .ok (tree.start p ++ p.pieces.dropLast.filter (· ≠ ['.'])) :=
      (directoryOf_eq hend hnames).2.trans (enter_of_ne_missing hplain hfit (by rw [hkind]; simp))
    rw [← List.append_assoc] at hkind
    rw [read_eq, atEntry_eq hcheck hlast hdir, href, hfit last (by simp), hkind]
    rfl

/-- A path whose file is missing is not refused. -/
theorem checkPath_of_missing {tree : Tree} {p : Path} (hne : p.names ≠ [])
    (h : tree.read p = .error .notFound) : checkPath p = .ok () := by
  cases hcheck : checkPath p with
  | ok _ => rfl
  | error cause =>
      rw [read_eq, atEntry, hcheck] at h
      have hcause : cause = .notFound := Except.error.inj h
      have hempty : p.text = "" := by
        refine Classical.byContradiction ?_
        intro hempty
        rw [hcause, checkPath] at hcheck
        split at hcheck
        · cases hcheck
        · rw [if_neg (by simpa using hempty)] at hcheck
          split at hcheck <;> cases hcheck
      simp [Path.names, hempty] at hne

/-- A writable file is read or missing. -/
theorem Writable.read {tree : Tree} {p : Path} (hplain : Plain p.names) (h : tree.Writable p) :
    (∃ old, tree.read p = .ok old) ∨ tree.read p = .error .notFound := by
  obtain ⟨front, last, hnames, hstagingNames, -⟩ := exists_names h.ending
  have hfront : Plain front := (plain_append.1 (hnames ▸ hplain)).1
  have habove := h.above
  rw [hnames, List.dropLast_concat] at habove
  rcases enter_of_open hfront habove with henter | henter
  · obtain ⟨hlast, hdir⟩ : p.pieces.getLast? = some last ∧
        tree.directoryOf p = tree.enter (tree.start p) front := directoryOf_eq h.ending.2.1 hnames
    have href : isReference last = false := hplain last (by simp [hnames])
    have hfit : tooLong last = false :=
      tooLong_of_staging (h.fit _ (by simp [hstagingNames]))
    have htarget := h.target
    rw [hnames, ← List.append_assoc] at htarget
    rw [read_eq, atEntry_eq h.path hlast (hdir.trans henter), href, hfit, h.ending.1]
    cases hkind : tree.kind (tree.start p ++ front ++ [last]) with
    | missing => exact Or.inr rfl
    | directory => exact absurd hkind htarget
    | file content => exact Or.inl ⟨content, rfl⟩
  · right
    refine read_of_directoryOf h.path h.ending.2.2 (directoryOf_of_missing h.ending.2.2 ?_)
    rw [hnames, List.dropLast_concat, henter]

/-! ## The three effects -/

/-- The place of a file is not above it. -/
theorem not_between {start front : List Name} {last : Name} :
    ¬ Between start front (start ++ front ++ [last]) := by
  rintro ⟨above, -, hbelow, heq⟩
  rw [List.append_assoc, List.append_right_inj] at heq
  have hlength := hbelow.length_le
  rw [← heq, List.length_append, List.length_singleton] at hlength
  omega

/-- A file whose staging file is written after its directories were made was writable, unless a
directory stands there. -/
theorem writable_of_write {tree made staged : Tree} {p : Path} {content : ByteArray}
    (hplain : Plain p.names) (hne : p.names ≠ []) (hcheck : checkPath p = .ok ())
    (hgrows : tree.Grows made (Between (tree.start p) p.names.dropLast))
    (habove : tree.Open (tree.start p) p.names.dropLast)
    (hread : tree.read p ≠ .error .isADirectory)
    (hwrite : made.write p.staging content = .ok staged) : tree.Writable p := by
  obtain ⟨hstagingPath, -, dir, name, hname, -, hdir, hlong, hkind, -⟩ := write_eq_ok hwrite
  obtain ⟨front, last, hstaging, hlast, hnames⟩ := Path.names_staging hne
  obtain rfl : name = Path.stagingName last := Option.some.inj (hname.symm.trans hlast)
  have hstart : made.start p.staging = tree.start p := by
    rw [hgrows.start, start_staging tree hne]
  have hend : p.staging.pieces.getLast? = p.staging.names.getLast? := by
    rw [hlast, hstaging, List.getLast?_concat]
  have hfront : Plain front := by
    have hplainStaging := plain_staging hplain hne
    rw [hstaging] at hplainStaging
    exact (plain_append.1 hplainStaging).1
  rw [(directoryOf_eq hend hstaging).2, hstart] at hdir
  obtain ⟨rfl, hfit, hmade⟩ := (enter_eq_ok_iff hfront).1 hdir
  -- no directory stands at the path, where nothing was made
  have hnoDirectory : Fit p.names → tree.kind (tree.start p ++ p.names) ≠ .directory := by
    intro hfits hdirectory
    have henter : tree.enter (tree.start p) p.names = .ok (tree.start p ++ p.names) :=
      (enter_eq_ok_iff hplain).2 ⟨rfl, hfits, hdirectory⟩
    exact hread (read_of_enter hplain hne hcheck henter)
  rcases hnames with ⟨hends, hnames⟩ | ⟨hends, hnames⟩
  · rw [hnames, List.dropLast_concat] at habove hgrows
    have hfits : Fit p.names := by
      rw [hnames]
      exact fit_of_staging (fit_concat.2 ⟨hfit, hlong⟩)
    refine ⟨hcheck, hstagingPath, hends, ?_, ?_, hnoDirectory hfits, ?_⟩
    · rw [hstaging]
      exact fit_concat.2 ⟨hfit, hlong⟩
    · rw [hnames, List.dropLast_concat]
      exact habove
    · rw [hstaging, ← List.append_assoc]
      exact fun hdirectory => hkind (hgrows.directory hdirectory)
  -- without a name at its end the path would have to be a directory
  · subst hnames
    refine absurd ?_ (hnoDirectory hfit)
    obtain ⟨front, last, hnames⟩ := Path.exists_lastName hne
    rcases hgrows.kind (tree.start p ++ p.names) with heq | ⟨hbetween, -⟩
    · rw [← heq, hmade]
    · rw [hnames, List.dropLast_concat, ← List.append_assoc] at hbetween
      exact absurd hbetween not_between

/-- What an update does once the file is found to have, or to need, other bytes. -/
def rewrite (tree : Tree) (p : Path) (content : ByteArray) : Except FileError Update × Tree :=
  match tree.makeParent p with
  | (.error error, left) => (.error error, left)
  | (.ok (), made) =>
    match made.writeStaged p content with
    | (.error error, left) => (.error error, left)
    | (.ok (), written) => (.ok .written, written)

/-- Where directories were made they stand all along the way, once the last one is entered. -/
theorem Grows.kind_of_between {s t : Tree} {start front : List Name} (hfront : Plain front)
    (h : s.Grows t (Between start front)) (henter : t.enter start front = .ok (start ++ front))
    (place : List Name) :
    t.kind place =
      if start <+: place ∧ place <+: start ++ front then .directory else s.kind place := by
  split
  · rename_i habove
    exact kind_of_prefix_of_enter hfront henter habove.2
  · rename_i hoff
    refine (h.kind place).resolve_right ?_
    rintro ⟨⟨above, -, hbelow, rfl⟩, -⟩
    exact hoff ⟨List.prefix_append _ _, (List.prefix_append_right_inj _).2 hbelow⟩

/-- A writable file that is made anew is written. -/
theorem rewrite_of_writable {tree : Tree} {p : Path} (hplain : Plain p.names)
    (h : tree.Writable p) (content : ByteArray) :
    ∃ t, tree.rewrite p content = (.ok .written, t) ∧ tree.Written t p content := by
  have hne := h.ending.2.2
  obtain ⟨hgrows, -, hyes⟩ := makeParent_cases tree hplain hne h.path
  obtain ⟨hok, hleft, -⟩ := hyes h.above.start
  obtain ⟨front, last, hnames, hstagingNames, -⟩ := exists_names h.ending
  have hfront : Plain front := (plain_append.1 (hnames ▸ hplain)).1
  have habove := h.above
  have htarget := h.target
  have hstaging := h.staging
  have hfit := h.fit (Path.stagingName last) (by simp [hstagingNames])
  rw [hnames, ← List.append_assoc] at htarget
  rw [hstagingNames, ← List.append_assoc] at hstaging
  rw [hnames, List.dropLast_concat] at hok hleft habove hgrows
  cases hmake : tree.makeParent p with
  | mk result made =>
      rw [hmake] at hok hleft hgrows
      obtain rfl : result = .ok () := hok.2 habove
      -- the directory of the path is there now, and its entries are as before
      have henter := (enter_of_open hfront ((hgrows.open_iff habove.start).2 habove)).resolve_right
        hleft
      have hkept : ∀ name, made.kind (tree.start p ++ front ++ [name]) =
          tree.kind (tree.start p ++ front ++ [name]) := fun name =>
        (hgrows.kind _).resolve_right fun hbetween => not_between hbetween.1
      rw [← hgrows.start p] at henter htarget hstaging hkept
      rw [← hkept] at htarget hstaging
      obtain ⟨hlast, hdir⟩ : p.pieces.getLast? = some last ∧
          made.directoryOf p = made.enter (made.start p) front :=
        directoryOf_eq h.ending.2.1 hnames
      have href : isReference last = false := hplain last (by simp [hnames])
      obtain ⟨t, hwritten, hhere, hkind⟩ := writeStaged_of_ok content h.path h.stagingPath h.ending
        hlast href (hdir.trans henter) hfit htarget hstaging
      refine ⟨t, ?_, hhere.trans hgrows.here, ?_⟩
      · unfold rewrite
        rw [hmake]
        simp only [hwritten]
      · intro place
        rw [hgrows.start] at hkind henter
        rw [hkind, hnames, hstagingNames, ← List.append_assoc, ← List.append_assoc,
          List.dropLast_concat]
        by_cases hplace : place = tree.start p ++ front ++ [last]
        · rw [if_pos hplace, if_pos hplace]
        by_cases hplace' : place = tree.start p ++ front ++ [Path.stagingName last]
        · rw [if_neg hplace, if_neg hplace, if_pos hplace', if_pos hplace']
        rw [if_neg hplace, if_neg hplace, if_neg hplace', if_neg hplace']
        exact hgrows.kind_of_between hfront henter place

/-- The second tree is the first one after an update by a plain path that failed: only directories
above the path are new, no further ones can be made, and none are new if none could be made
before. -/
structure Failed (s t : Tree) (p : Path) : Prop where
  grows : s.Grows t (Between (s.start p) p.names.dropLast)
  stuck : t.Stuck p
  same : s.Stuck p → t = s

/-- A file that is not writable is not made anew. -/
theorem rewrite_of_not_writable {tree : Tree} {p : Path} (hplain : Plain p.names)
    (hne : p.names ≠ []) (hcheck : checkPath p = .ok ())
    (hread : tree.read p ≠ .error .isADirectory) (h : ¬ tree.Writable p) (content : ByteArray) :
    ∃ error t, tree.rewrite p content = (.error error, t) ∧ tree.Failed t p := by
  obtain ⟨hgrows, hno, hyes⟩ := makeParent_cases tree hplain hne hcheck
  have hstart : (tree.makeParent p).2.start p = tree.start p := hgrows.start p
  have hfailed : tree.Failed (tree.makeParent p).2 p := by
    refine ⟨hgrows, ?_, ?_⟩
    · intro _ hdirectory
      rw [hstart] at hdirectory ⊢
      refine (hyes (Classical.byContradiction fun hmissing => ?_)).2.1
      rw [hno hmissing] at hdirectory
      exact hmissing hdirectory
    · intro hstuck
      by_cases hdirectory : tree.kind (tree.start p) = .directory
      · exact (hyes hdirectory).2.2 (hstuck hcheck hdirectory)
      · exact hno hdirectory
  cases hmake : tree.makeParent p with
  | mk result made =>
      rw [hmake] at hgrows hno hyes hfailed hstart
      cases result with
      | error error =>
          refine ⟨error, made, ?_, hfailed⟩
          unfold rewrite
          rw [hmake]
      | ok _ =>
          cases hwrite : made.write p.staging content with
          | error cause =>
              refine ⟨⟨p.staging, cause⟩, made, ?_, hfailed⟩
              unfold rewrite
              rw [hmake]
              simp only [writeStaged_of_error hwrite]
          | ok staged =>
              -- a staging file is only written below a directory to start from
              have hdirectory : tree.kind (tree.start p) = .directory := by
                obtain ⟨-, -, dir, last, -, -, hdir, -⟩ := write_eq_ok hwrite
                have hmade := kind_of_enter_eq_ok hdir
                rw [start_staging made hne, hstart] at hmade
                refine Classical.byContradiction ?_
                intro hmissing
                rw [show made = tree from hno hmissing] at hmade
                exact hmissing hmade
              have habove := (hyes hdirectory).1.1 rfl
              exact absurd (writable_of_write hplain hne hcheck hgrows habove hread hwrite) h

/-- The effect of an update by a plain path. -/
theorem update_cases (tree : Tree) {p : Path} (hplain : Plain p.names) (hne : p.names ≠ [])
    (text : String) :
    tree.Holds p text.toUTF8 ∧ tree.update p text false = (.ok .unchanged, tree) ∨
      ¬ tree.Holds p text.toUTF8 ∧
        (tree.Writable p ∧
            (∃ t, tree.update p text false = (.ok .written, t) ∧
              tree.Written t p text.toUTF8) ∨
          ¬ tree.Writable p ∧
            ∃ error t, tree.update p text false = (.error error, t) ∧ tree.Failed t p) := by
  by_cases hholds : tree.Holds p text.toUTF8
  · left
    refine ⟨hholds, ?_⟩
    obtain ⟨old, hread, hdigest⟩ := hholds
    unfold update
    rw [digest?_of_read hread]
    simp [hdigest]
  refine Or.inr ⟨hholds, ?_⟩
  have hrewrite : ∀ old, tree.digest? p = .ok old → old ≠ some (Digest.ofContent text.toUTF8) →
      tree.update p text false = tree.rewrite p text.toUTF8 := by
    intro old hold hchanged
    unfold update rewrite
    rw [hold]
    exact (if_neg hchanged).trans (if_neg Bool.false_ne_true)
  -- once the path is not refused and no directory is read, being writable decides
  have hcases : checkPath p = .ok () → tree.read p ≠ .error .isADirectory →
      tree.update p text false = tree.rewrite p text.toUTF8 →
      tree.Writable p ∧
          (∃ t, tree.update p text false = (.ok .written, t) ∧ tree.Written t p text.toUTF8) ∨
        ¬ tree.Writable p ∧
          ∃ error t, tree.update p text false = (.error error, t) ∧ tree.Failed t p := by
    intro hcheck hread heq
    rw [heq]
    by_cases hwritable : tree.Writable p
    · exact Or.inl ⟨hwritable, rewrite_of_writable hplain hwritable _⟩
    · exact Or.inr ⟨hwritable, rewrite_of_not_writable hplain hne hcheck hread hwritable _⟩
  cases hread : tree.read p with
  | ok old =>
      refine hcases (read_eq_ok hread).1 (by simp [hread]) (hrewrite _ (digest?_of_read hread) ?_)
      intro heq
      exact hholds ⟨old, hread, Option.some.inj heq⟩
  | error cause =>
      by_cases hmissing : cause = .notFound
      · subst hmissing
        exact hcases (checkPath_of_missing hne hread) (by simp [hread])
          (hrewrite _ (digest?_of_missing hread) (by simp))
      -- what cannot be read for another cause is not written either
      · right
        refine ⟨?_, ⟨p, cause⟩, tree, ?_, Grows.refl _ _, ?_, fun _ => rfl⟩
        · intro hwritable
          rcases hwritable.read hplain with ⟨old, hold⟩ | hnone
          · rw [hread] at hold
            cases hold
          · rw [hread] at hnone
            exact hmissing (Except.error.inj hnone)
        · unfold update
          rw [digest?_of_error hread hmissing]
        · intro hcheck _ henter
          have hnone := read_of_directoryOf hcheck hne (directoryOf_of_missing hne henter)
          rw [hread] at hnone
          exact hmissing (Except.error.inj hnone)

end Vendoring.Tree
