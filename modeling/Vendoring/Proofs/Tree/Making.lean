import Vendoring.Proofs.Tree.Growth

/-!
# Making directories below a directory

Below a directory to start from, making a directory with those above it succeeds exactly if the
names fit and no file is in the way. Afterwards there is nothing more to make, whether it succeeded
or not (`makeDirectories_of_plain`): done again, it leaves the tree as it is.
-/

namespace Vendoring

namespace Tree

/-! ## Nothing in the way -/

/-- Nothing is in the way of making directories with the given names, one in another. -/
structure Open (tree : Tree) (place names : List Name) : Prop where
  start : tree.kind place = .directory
  fit : Fit names
  clear : ∀ q, place <+: q → q <+: place ++ names → ∀ content, tree.kind q ≠ .file content

/-- There are directories all the way to a directory that is entered. -/
theorem kind_of_prefix_of_enter {tree : Tree} {place names dir q : List Name}
    (hplain : Plain names) (h : tree.enter place names = .ok dir) (hbelow : q <+: place ++ names) :
    tree.kind q = .directory := by
  obtain ⟨-, -, hkind⟩ := (enter_eq_ok_iff hplain).1 h
  obtain ⟨rest, hrest⟩ := hbelow
  by_cases hnil : rest = []
  · rw [← hkind, ← hrest, hnil, List.append_nil]
  · refine kind_of_append_ne_missing hnil ?_
    rw [hrest, hkind]
    simp

/-- Nothing is in the way of directories that can be entered. -/
theorem open_of_enter {tree : Tree} {place names dir : List Name} (hplain : Plain names)
    (h : tree.enter place names = .ok dir) : tree.Open place names := by
  obtain ⟨-, hfit, -⟩ := (enter_eq_ok_iff hplain).1 h
  refine ⟨kind_of_enter_eq_ok h, hfit, ?_⟩
  intro q _ hbelow content hfile
  rw [kind_of_prefix_of_enter hplain h hbelow] at hfile
  cases hfile

/-- If nothing is in the way, a directory is entered or missing. -/
theorem enter_of_open {tree : Tree} {place names : List Name} (hplain : Plain names)
    (h : tree.Open place names) :
    tree.enter place names = .ok (place ++ names) ∨ tree.enter place names = .error .notFound := by
  induction names generalizing place with
  | nil =>
      left
      rw [enter_nil, h.start, List.append_nil]
  | cons name names ih =>
      rw [enter_cons_of_plain (hplain name (by simp)) tree place names h.start,
        if_neg (by simp [h.fit name (by simp)])]
      cases hkind : tree.kind (place ++ [name]) with
      | missing => exact Or.inr (enter_of_missing hkind names)
      | file content =>
          exact absurd hkind (h.clear _ (List.prefix_append _ _) (by simp) content)
      | directory =>
          have hnames : Plain names := fun other hother => hplain other (by simp [hother])
          have hopen : tree.Open (place ++ [name]) names := by
            refine ⟨hkind, fun other hother => h.fit other (by simp [hother]), ?_⟩
            intro q habove hbelow
            exact h.clear q ((List.prefix_append _ _).trans habove) (by simpa using hbelow)
          simpa using ih hnames hopen

/-- Nothing is in the way of one more directory exactly if its name is short enough and no file has
its place. -/
theorem open_concat {tree : Tree} {place front : List Name} {last : Name} :
    tree.Open place (front ++ [last]) ↔ tree.Open place front ∧ tooLong last = false ∧
      ∀ content, tree.kind (place ++ front ++ [last]) ≠ .file content := by
  constructor
  · intro h
    obtain ⟨hfit, hlong⟩ := fit_concat.1 h.fit
    refine ⟨⟨h.start, hfit, ?_⟩, hlong, ?_⟩
    · intro q habove hbelow
      refine h.clear q habove (hbelow.trans ?_)
      rw [← List.append_assoc]
      exact List.prefix_append _ _
    · intro content
      exact h.clear _ (by simp) (by simp) content
  · rintro ⟨h, hlong, hfile⟩
    refine ⟨h.start, fit_concat.2 ⟨h.fit, hlong⟩, ?_⟩
    intro q habove hbelow content
    rw [← List.append_assoc, List.prefix_concat_iff] at hbelow
    rcases hbelow with rfl | hbelow
    · exact hfile content
    · exact h.clear q habove hbelow content

/-- New directories are in the way of nothing, and make way for nothing. -/
theorem Grows.open_iff {s t : Tree} {made : List Name → Prop} (h : s.Grows t made)
    {place names : List Name} (hstart : s.kind place = .directory) :
    t.Open place names ↔ s.Open place names := by
  have hkept := h.directory hstart
  constructor
  · intro hopen
    refine ⟨hstart, hopen.fit, ?_⟩
    intro q habove hbelow content hfile
    exact hopen.clear q habove hbelow content (h.file_iff.2 hfile)
  · intro hopen
    refine ⟨hkept, hopen.fit, ?_⟩
    intro q habove hbelow content hfile
    exact hopen.clear q habove hbelow content (h.file_iff.1 hfile)

/-! ## One directory -/

/-- Make the directory of a path whose parent is there already. -/
def lastDirectory (tree : Tree) (p : Path) : Except IoError Unit × Tree :=
  match tree.makeDirectory p with
  | .ok made => (.ok (), made)
  | .error cause => (if tree.isDirectory p then .ok () else .error cause, tree)

/-- The pieces `.` of a path do not matter for the directory that is entered. -/
theorem enter_pieces (tree : Tree) (place : List Name) (p : Path) :
    tree.enter place p.pieces = tree.enter place p.names := by
  rw [Path.names_eq_filter, enter_filter]

/-- What making a directory by a path does below a directory to start from: it succeeds exactly if
nothing is in the way; afterwards nothing is missing on the way, and where nothing was missing
before nothing changes. -/
structure Makes (tree : Tree) (p : Path) (result : Except IoError Unit × Tree) : Prop where
  ok : result.1 = .ok () ↔ tree.Open (tree.start p) p.names
  left : result.2.enter (tree.start p) p.names ≠ .error .notFound
  kept : tree.enter (tree.start p) p.names ≠ .error .notFound → result.2 = tree

section

variable {tree : Tree} {p : Path} {front : List Name} {last : Name}

/-- Behind the directory of its parent a path is entered by its last name. -/
theorem enter_of_front (hplain : Plain p.names) (hnames : p.names = front ++ [last])
    (hfront : tree.enter (tree.start p) front = .ok (tree.start p ++ front)) :
    tree.enter (tree.start p) p.names =
      if tooLong last then .error .nameTooLong else tree.enter (tree.start p ++ p.names) [] := by
  rw [hnames, enter_append, hfront, ← List.append_assoc]
  have href : isReference last = false := hplain last (by simp [hnames])
  exact enter_cons_of_plain href tree _ [] (enter_eq_ok hfront).2

/-- One more directory is made unless its name does not fit or something is there. -/
theorem lastDirectory_eq (hcheck : checkPath p = .ok ())
    (hend : p.pieces.getLast? = p.names.getLast?) (hplain : Plain p.names)
    (hnames : p.names = front ++ [last])
    (hfront : tree.enter (tree.start p) front = .ok (tree.start p ++ front)) :
    tree.lastDirectory p =
      if tooLong last then (.error .nameTooLong, tree)
      else match tree.kind (tree.start p ++ p.names) with
        | .missing => (.ok (), tree.set (tree.start p ++ p.names) (.directory []))
        | .directory => (.ok (), tree)
        | .file _ => (.error .alreadyExists, tree) := by
  obtain ⟨hlast, hdir⟩ : p.pieces.getLast? = some last ∧
      tree.directoryOf p = tree.enter (tree.start p) front := directoryOf_eq hend hnames
  rw [hfront] at hdir
  have href : isReference last = false := hplain last (by simp [hnames])
  have hmake := makeDirectory_eq tree p
  rw [atEntry_eq hcheck hlast hdir, href, List.append_assoc, ← hnames] at hmake
  have henter := enter_of_front hplain hnames hfront
  rw [← enter_pieces] at henter
  unfold lastDirectory
  by_cases hlong : tooLong last = true
  · have hno : tree.isDirectory p = false := by
      rw [Bool.eq_false_iff, Ne, isDirectory_iff, henter, if_pos hlong]
      simp
    simp [hmake, hlong, hno]
  rw [if_neg hlong, enter_nil] at henter
  rw [if_neg hlong]
  cases hkind : tree.kind (tree.start p ++ p.names) with
  | missing => simp [hmake, hlong, hkind]
  | directory =>
      have hyes : tree.isDirectory p = true := by
        rw [isDirectory_iff, henter, hkind]
        exact ⟨hcheck, _, rfl⟩
      simp [hmake, hlong, hkind, hyes]
  | file content =>
      have hno : tree.isDirectory p = false := by
        rw [Bool.eq_false_iff, Ne, isDirectory_iff, henter, hkind]
        simp
      simp [hmake, hlong, hkind, hno]

/-- Where its parent is entered, the last directory of a path is all there is to make. -/
theorem lastDirectory_makes (hcheck : checkPath p = .ok ())
    (hend : p.pieces.getLast? = p.names.getLast?) (hplain : Plain p.names)
    (hnames : p.names = front ++ [last])
    (hfront : tree.enter (tree.start p) front = .ok (tree.start p ++ front)) :
    tree.Makes p (tree.lastDirectory p) := by
  have henter := enter_of_front hplain hnames hfront
  have hplace : tree.start p ++ p.names = tree.start p ++ front ++ [last] := by
    rw [hnames, List.append_assoc]
  have hopen : tree.Open (tree.start p) p.names ↔ tooLong last = false ∧
      ∀ content, tree.kind (tree.start p ++ p.names) ≠ .file content := by
    rw [hplace, hnames, open_concat]
    rw [hnames] at hplain
    exact and_iff_right (open_of_enter (plain_append.1 hplain).1 hfront)
  rw [lastDirectory_eq hcheck hend hplain hnames hfront]
  by_cases hlong : tooLong last = true
  · rw [if_pos hlong] at henter ⊢
    exact ⟨by simp [hopen, hlong], by simp [henter], fun _ => rfl⟩
  rw [if_neg hlong, enter_nil] at henter
  rw [if_neg hlong]
  rw [Bool.not_eq_true] at hlong
  cases hkind : tree.kind (tree.start p ++ p.names) with
  | missing =>
      refine ⟨by simp [hopen, hlong, hkind], ?_, by simp [henter, hkind]⟩
      have hmade : (tree.set (tree.start p ++ p.names) (.directory [])).enter (tree.start p) p.names =
          .ok (tree.start p ++ p.names) := by
        rw [enter_eq_ok_iff hplain]
        refine ⟨rfl, (hopen.2 ⟨hlong, by simp [hkind]⟩).fit, ?_⟩
        rw [hplace] at hkind ⊢
        rw [kind_set_directory (enter_eq_ok hfront).2 hkind, if_pos rfl]
      rw [hmade]
      simp
  | directory => exact ⟨by simp [hopen, hlong, hkind], by simp [henter, hkind], fun _ => rfl⟩
  | file content => exact ⟨by simp [hopen, hkind], by simp [henter, hkind], fun _ => rfl⟩

end

/-! ## The directories above it -/

/-- A path is refused exactly if a NUL character is in it, if it is empty, or if it is too long. -/
theorem checkPath_eq_ok_iff {p : Path} :
    checkPath p = .ok () ↔
      '\x00' ∉ p.text.toList ∧ p.text ≠ "" ∧ p.text.utf8ByteSize ≤ longestPath := by
  unfold checkPath
  by_cases hnul : '\x00' ∈ p.text.toList
  · simp [hnul]
  by_cases hempty : p.text = ""
  · simp [hempty]
  by_cases hlong : longestPath < p.text.utf8ByteSize
  · simp [hnul, hempty, hlong]
  · simp [hnul, hempty, hlong, Nat.not_lt.1 hlong]

/-- An initial piece of a path that is not refused is not refused, unless it is empty. -/
theorem checkPath_of_text {p q : Path} (h : checkPath p = .ok ())
    (hq : q.text.toList <+: p.text.toList) : q.text = "" ∨ checkPath q = .ok () := by
  by_cases hne : q.text = ""
  · exact Or.inl hne
  right
  obtain ⟨hnul, -, hlong⟩ := checkPath_eq_ok_iff.1 h
  obtain ⟨rest, hrest⟩ := hq
  have htext : p.text = q.text ++ String.ofList rest := by
    rw [← String.toList_inj, String.toList_append, String.toList_ofList, hrest]
  refine checkPath_eq_ok_iff.2 ⟨fun hmem => hnul ?_, hne, ?_⟩
  · rw [← hrest]
    exact List.mem_append_left _ hmem
  · rw [htext, String.utf8ByteSize_append] at hlong
    omega

/-- Where the parent is not missing, making the last directory is all that is done. -/
theorem makeDirectories_of_ne {tree : Tree} {p : Path} (hempty : p.text ≠ "")
    (h : tree.makeDirectory p ≠ .error .notFound) :
    tree.makeDirectories p = tree.lastDirectory p := by
  unfold lastDirectory
  rw [makeDirectories, if_neg (by simpa using hempty)]
  split
  · rename_i made hmade
    rw [hmade]
  · rename_i hmissing
    exact absurd hmissing h
  · rename_i cause _ hcause
    rw [hcause]

/-- Where the parent is missing, the directories above are made first, then the last one. -/
theorem makeDirectories_of_missing {tree : Tree} {p above : Path} (hempty : p.text ≠ "")
    (h : tree.makeDirectory p = .error .notFound) (hparent : p.parent? = some above) :
    tree.makeDirectories p =
      match tree.makeDirectories above with
      | (.error cause, left) => (.error cause, left)
      | (.ok (), left) => left.lastDirectory p := by
  rw [makeDirectories, if_neg (by simpa using hempty), h]
  simp only
  split
  · rename_i hnone
    rw [hnone] at hparent
    cases hparent
  · rename_i other hother
    obtain rfl := Option.some.inj (hparent.symm.trans hother)
    cases tree.makeDirectories above with
    | mk result left =>
        cases result with
        | error cause => rfl
        | ok _ =>
            show (match left.makeDirectory p with | .ok made => _ | .error cause => _) = _
            unfold lastDirectory
            cases hmake : left.makeDirectory p <;> simp [hmake]

/-- Where a directory is entered there is nothing to make. -/
theorem makeDirectories_of_enter {tree : Tree} {p : Path} {dir : List Name}
    (hcheck : p.text = "" ∨ checkPath p = .ok ())
    (henter : tree.enter (tree.start p) p.pieces = .ok dir) :
    tree.makeDirectories p = (.ok (), tree) := by
  by_cases hempty : p.text = ""
  · rw [makeDirectories, if_pos (by simpa using hempty)]
  replace hcheck := hcheck.resolve_left hempty
  have hmake : tree.makeDirectory p = .error .alreadyExists := by
    rw [makeDirectory_eq]
    cases hlast : p.pieces.getLast? with
    | none =>
        unfold atEntry
        rw [hcheck, hlast]
    | some last =>
        obtain ⟨front, hpieces⟩ := List.getLast?_eq_some_iff.1 hlast
        rw [hpieces, enter_append] at henter
        obtain ⟨above, habove, hlastEnter⟩ := bind_eq_ok henter
        have hdir : tree.directoryOf p = .ok above := by
          rw [directoryOf, hpieces, List.dropLast_concat, habove]
        rw [atEntry_eq hcheck hlast hdir]
        by_cases href : isReference last = true
        · rw [if_pos href]
        -- the last piece is the name of a directory
        rw [Bool.not_eq_true] at href
        rw [enter_cons_of_plain href tree above [] (enter_eq_ok habove).2] at hlastEnter
        by_cases hlong : tooLong last = true
        · rw [if_pos hlong] at hlastEnter
          cases hlastEnter
        · rw [if_neg hlong] at hlastEnter
          rw [href, if_neg (by simp), if_neg hlong, kind_of_enter_eq_ok hlastEnter]
          rfl
  have hdirectory : tree.isDirectory p = true := isDirectory_iff.2 ⟨hcheck, dir, henter⟩
  rw [makeDirectories_of_ne hempty (by simp [hmake]), lastDirectory, hmake]
  simp [hdirectory]

/-- A path by which directories are made below a directory to start from: it names them without
climbing, it is not refused, unless it is empty, and it ends in its last name. -/
structure Makeable (p : Path) : Prop where
  plain : Plain p.names
  check : p.text = "" ∨ checkPath p = .ok ()
  ending : p.names ≠ [] → p.pieces.getLast? = p.names.getLast?

/-- The parent of a path names a directory that can be made. -/
theorem exists_above {p : Path} (hplain : Plain p.names) (hcheck : checkPath p = .ok ())
    (hne : p.names ≠ []) :
    ∃ above, p.parent? = some above ∧ above.names = p.names.dropLast ∧
      (∀ tree : Tree, tree.start above = tree.start p) ∧ Makeable above := by
  obtain ⟨above, hparent⟩ := Path.exists_parent? hne
  obtain ⟨hnames, habsolute, htext, hend⟩ := Path.parent?_eq_some hparent
  refine ⟨above, hparent, hnames, ?_, ?_, ?_, hend⟩
  · intro tree
    exact start_of_isAbsolute habsolute
  · intro name hname
    rw [hnames] at hname
    exact hplain name (List.dropLast_subset _ hname)
  · exact checkPath_of_text hcheck htext

section

variable {tree : Tree} {p above : Path} {front : List Name} {last : Name}

/-- A parent that cannot be entered for another reason than that it is missing is not made. -/
theorem makes_of_stuck (hcheck : checkPath p = .ok ())
    (hend : p.pieces.getLast? = p.names.getLast?) (hplain : Plain p.names)
    (hnames : p.names = front ++ [last]) {cause : IoError} (hcause : cause ≠ .notFound)
    (hfront : tree.enter (tree.start p) front = .error cause) :
    tree.Makes p (tree.makeDirectories p) := by
  obtain ⟨hlast, hdir⟩ : p.pieces.getLast? = some last ∧
      tree.directoryOf p = tree.enter (tree.start p) front := directoryOf_eq hend hnames
  have henter : tree.enter (tree.start p) p.names = .error cause := by
    rw [hnames, enter_append, hfront]
    rfl
  have hno : tree.isDirectory p = false := by
    rw [Bool.eq_false_iff, Ne, isDirectory_iff, enter_pieces, henter]
    simp
  have hmake : tree.makeDirectory p = .error cause := by
    rw [makeDirectory_eq]
    unfold atEntry
    rw [hcheck, hlast, hdir, hfront]
  have hresult : tree.makeDirectories p = (.error cause, tree) := by
    rw [makeDirectories_of_ne (text_ne_of_checkPath hcheck) (by simpa [hmake] using hcause),
      lastDirectory, hmake]
    simp [hno]
  rw [hresult]
  refine ⟨iff_of_false (by simp) fun hopen => ?_, by simpa [henter] using hcause, fun _ => rfl⟩
  rcases enter_of_open hplain hopen with h | h
  · rw [henter] at h
    cases h
  · rw [henter] at h
    exact hcause (Except.error.inj h)

/-- A parent that is missing is made first, and the last directory only if that succeeds. -/
theorem makes_of_missing (hcheck : checkPath p = .ok ())
    (hend : p.pieces.getLast? = p.names.getLast?) (hplain : Plain p.names)
    (hnames : p.names = front ++ [last])
    (hmissing : tree.enter (tree.start p) front = .error .notFound)
    (hstart : tree.kind (tree.start p) = .directory) (hparent : p.parent? = some above)
    (hok : (tree.makeDirectories above).1 = .ok () ↔ tree.Open (tree.start p) front)
    (hleft : (tree.makeDirectories above).2.enter (tree.start p) front ≠ .error .notFound) :
    tree.Makes p (tree.makeDirectories p) := by
  have hfront : Plain front := (plain_append.1 (hnames ▸ hplain)).1
  have hmake : tree.makeDirectory p = .error .notFound := by
    obtain ⟨hlast, hdir⟩ : p.pieces.getLast? = some last ∧
        tree.directoryOf p = tree.enter (tree.start p) front := directoryOf_eq hend hnames
    rw [makeDirectory_eq]
    unfold atEntry
    rw [hcheck, hlast, hdir, hmissing]
  have hkept : tree.enter (tree.start p) p.names = .error .notFound := by
    rw [hnames, enter_append, hmissing]
    rfl
  have hgrows := makeDirectories_grows tree above
  rw [makeDirectories_of_missing (text_ne_of_checkPath hcheck) hmake hparent]
  cases hresult : tree.makeDirectories above with
  | mk result left =>
      rw [hresult] at hok hleft hgrows
      have hopen : left.Open (tree.start p) front ↔ tree.Open (tree.start p) front :=
        hgrows.open_iff hstart
      cases result with
      | error cause =>
          have hclosed : ¬ tree.Open (tree.start p) front := fun h => by cases hok.2 h
          refine ⟨iff_of_false (by simp) fun h => hclosed ?_, ?_, fun h => absurd hkept h⟩
          · rw [hnames] at h
            exact (open_concat.1 h).1
          · show left.enter (tree.start p) p.names ≠ _
            rw [hnames, enter_append]
            cases henter : left.enter (tree.start p) front with
            | ok dir => exact absurd (hopen.1 (open_of_enter hfront henter)) hclosed
            | error other =>
                rw [henter] at hleft
                exact hleft
      | ok _ =>
          have henter := (enter_of_open hfront (hopen.2 (hok.1 rfl))).resolve_right hleft
          rw [← hgrows.start p] at henter
          have hlast := lastDirectory_makes hcheck hend hplain hnames henter
          have hlastOk := hlast.ok
          have hlastLeft := hlast.left
          rw [hgrows.start p] at hlastOk hlastLeft
          exact ⟨hlastOk.trans (hgrows.open_iff hstart), hlastLeft, fun h => absurd hkept h⟩

end

/-- All directories of a path that can be made are made, by induction on the number of its names. -/
theorem makeDirectories_of_plain {tree : Tree} {p : Path} (h : Makeable p)
    (hstart : tree.kind (tree.start p) = .directory) :
    tree.Makes p (tree.makeDirectories p) := by
  -- a parent has one name less
  induction hn : p.names.length generalizing p with
  | zero =>
      have hnames := List.length_eq_zero_iff.1 hn
      have henter : tree.enter (tree.start p) p.names = .ok (tree.start p) := by
        rw [hnames, enter_nil, hstart]
      rw [makeDirectories_of_enter h.check ((enter_pieces tree _ p).trans henter)]
      exact ⟨iff_of_true rfl (open_of_enter h.plain henter), by simp [henter], fun _ => rfl⟩
  | succ n ih =>
      have hne : p.names ≠ [] := by
        rintro hnil
        simp [hnil] at hn
      obtain ⟨front, last, hnames⟩ := Path.exists_lastName hne
      have hempty : p.text ≠ "" := by
        intro hempty
        simp [Path.names, hempty] at hne
      have hcheck := h.check.resolve_left hempty
      have hend := h.ending hne
      cases henter : tree.enter (tree.start p) front with
      | ok dir =>
          have hfront : Plain front := (plain_append.1 (hnames ▸ h.plain)).1
          obtain rfl := ((enter_eq_ok_iff hfront).1 henter).1
          obtain ⟨hlast, hdir⟩ : p.pieces.getLast? = some last ∧
              tree.directoryOf p = tree.enter (tree.start p) front := directoryOf_eq hend hnames
          rw [makeDirectories_of_ne hempty]
          · exact lastDirectory_makes hcheck hend h.plain hnames henter
          · rw [makeDirectory_eq, atEntry_eq hcheck hlast (hdir.trans henter)]
            repeat' split
            all_goals simp
      | error cause =>
          by_cases hmissing : cause = .notFound
          · subst hmissing
            obtain ⟨above, hparent, habove, hstartAbove, hmakeable⟩ :=
              exists_above h.plain hcheck hne
            rw [hnames, List.dropLast_concat] at habove
            have hlength : above.names.length = n := by
              rw [hnames, List.length_append, List.length_singleton] at hn
              rw [habove]
              omega
            have hmade := ih hmakeable (by rw [hstartAbove]; exact hstart) hlength
            have hok := hmade.ok
            have hleft := hmade.left
            rw [hstartAbove, habove] at hok hleft
            exact makes_of_missing hcheck hend h.plain hnames henter hstart hparent hok hleft
          · exact makes_of_stuck hcheck hend h.plain hnames hmissing henter

end Tree

end Vendoring
