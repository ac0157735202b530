import Vendoring.Proofs.Tree.Walk

/-!
# The entries of paths

Every operation that succeeds does so at the place its path asks for (`read_eq_ok`, `write_eq_ok`,
`moveFile_eq_ok`). A path with no `..` among its names asks for the place that its names give below
its start, and what stands there tells whether a directory is entered (`enter_eq_ok_iff`) and
whether a file is read (`read_eq_ok_iff`).
-/

namespace Vendoring.Tree

/-! ## What success says -/

/-- A computation in two steps that succeeds has gone through both of them. -/
theorem bind_eq_ok {α β : Type} {x : Except IoError α} {f : α → Except IoError β} {b : β}
    (h : x >>= f = .ok b) : ∃ a, x = .ok a ∧ f a = .ok b := by
  cases x with
  | error cause => cases h
  | ok a => exact ⟨a, rfl, h⟩

/-- An entry that is looked at with success is found in a directory. -/
theorem atEntry_eq_ok {α : Type} {tree : Tree} {p : Path} {missing : Except IoError α}
    {look : List Name → Name → NodeKind → Except IoError α} {a : α}
    (h : tree.atEntry p missing look = .ok a) :
    checkPath p = .ok () ∧
      (p.pieces.getLast? = none ∧ missing = .ok a ∨
        ∃ dir last, p.pieces.getLast? = some last ∧ tree.directoryOf p = .ok dir ∧
          look dir last (tree.kind (dir ++ [last])) = .ok a) := by
  unfold atEntry at h
  split at h
  · cases h
  · rename_i hcheck
    refine ⟨hcheck, ?_⟩
    split at h
    · rename_i hnone
      exact Or.inl ⟨hnone, h⟩
    · rename_i last hlast
      split at h
      · cases h
      · rename_i dir hdir
        exact Or.inr ⟨dir, last, hlast, hdir, h⟩

/-- Where the directory of a path is found, the entry that its last piece names is looked at. -/
theorem atEntry_eq {α : Type} {tree : Tree} {p : Path} {missing : Except IoError α}
    {look : List Name → Name → NodeKind → Except IoError α} {dir : List Name} {last : Name}
    (hcheck : checkPath p = .ok ()) (hlast : p.pieces.getLast? = some last)
    (hdir : tree.directoryOf p = .ok dir) :
    tree.atEntry p missing look = look dir last (tree.kind (dir ++ [last])) := by
  unfold atEntry
  rw [hcheck, hlast, hdir]

/-- A name refers to a directory that is there already exactly if it is `.` or `..`. -/
theorem isReference_eq_false {name : Name} :
    isReference name = false ↔ name ≠ ['.'] ∧ name ≠ ['.', '.'] := by
  simp [isReference]

/-- A last piece that is no reference is the last name, behind those of the pieces in front of
it. -/
theorem names_of_getLast? {p : Path} {last : Name} (hlast : p.pieces.getLast? = some last)
    (href : isReference last = false) :
    p.names = p.pieces.dropLast.filter (· ≠ ['.']) ++ [last] := by
  obtain ⟨front, hpieces⟩ := List.getLast?_eq_some_iff.1 hlast
  have hdot := (isReference_eq_false.1 href).1
  rw [Path.names_eq_filter, hpieces, List.dropLast_concat, List.filter_append,
    List.filter_cons_of_pos (by simpa using hdot), List.filter_nil]

/-- The entry of a path that ends in a name is the place that the path asks for. -/
theorem placeOf_eq {tree : Tree} {p : Path} {dir : List Name} {last : Name}
    (hlast : p.pieces.getLast? = some last) (href : isReference last = false)
    (hdir : tree.directoryOf p = .ok dir) : tree.placeOf p = dir ++ [last] := by
  rw [placeOf, names_of_getLast? hlast href, List.foldl_append, ← (enter_eq_ok hdir).1]
  simp [climb, (isReference_eq_false.1 href).2]

/-- A path that is written without pieces but not empty ends in a slash. -/
theorem endsInSlash_of_pieces_eq_nil {p : Path} (h : p.pieces = []) (hne : p.text ≠ "") :
    p.endsInSlash = true := by
  obtain ⟨front, last, htext, hlast, hfront⟩ := Path.exists_lastPiece p.text.toList
  rw [Path.pieces, htext, Path.piecesOf_append last hfront, List.append_eq_nil_iff] at h
  have hnil : last = [] := by
    refine Classical.byContradiction ?_
    intro hlast'
    rw [Path.piecesOf_of_notMem hlast hlast'] at h
    exact absurd h.2 (by simp)
  rcases hfront with rfl | hfront
  · exact absurd (by simpa [hnil] using htext) hne
  · rw [Path.endsInSlash, htext, hnil, List.append_nil, hfront]
    rfl

/-- A path that is not refused is not empty. -/
theorem text_ne_of_checkPath {p : Path} (h : checkPath p = .ok ()) : p.text ≠ "" := by
  intro hempty
  unfold checkPath at h
  rw [hempty] at h
  cases h

/-- A file that is read stands at the place that its path asks for, and the path ends in a name. -/
theorem read_eq_ok {tree : Tree} {p : Path} {content : ByteArray} (h : tree.read p = .ok content) :
    checkPath p = .ok () ∧ p.EndsInName ∧ tree.kind (tree.placeOf p) = .file content ∧
      ∃ dir last, p.pieces.getLast? = some last ∧ isReference last = false ∧
        tooLong last = false ∧ tree.directoryOf p = .ok dir := by
  rw [read_eq] at h
  obtain ⟨hcheck, ⟨hnone, h⟩ | ⟨dir, last, hlast, hdir, h⟩⟩ := atEntry_eq_ok h
  · have hslash := endsInSlash_of_pieces_eq_nil (List.getLast?_eq_none_iff.1 hnone)
      (text_ne_of_checkPath hcheck)
    rw [hslash] at h
    cases hkind : tree.kind (tree.start p) <;> simp [hkind, NodeKind.content] at h
  · by_cases href : isReference last = true
    · simp [href] at h
    by_cases hlong : tooLong last = true
    · simp [href, hlong] at h
    rw [Bool.not_eq_true] at href hlong
    rw [href, hlong] at h
    refine ⟨hcheck, ?_, ?_, dir, last, hlast, href, hlong, hdir⟩
    · have hnames := names_of_getLast? hlast href
      refine ⟨?_, by rw [hlast, hnames, List.getLast?_concat], by simp [hnames]⟩
      cases hslash : p.endsInSlash with
      | false => rfl
      | true =>
          rw [hslash] at h
          cases hkind : tree.kind (dir ++ [last]) <;> simp [hkind, NodeKind.content] at h
    · rw [placeOf_eq hlast href hdir]
      cases hkind : tree.kind (dir ++ [last]) with
      | missing => simp [hkind, NodeKind.content] at h
      | directory => simp [hkind, NodeKind.content] at h
      | file other =>
          cases hslash : p.endsInSlash <;> simp [hkind, hslash, NodeKind.content] at h
          rw [h]

/-- A directory is made where nothing stands, in a directory. -/
theorem makeDirectory_eq_ok {tree made : Tree} {p : Path} (h : tree.makeDirectory p = .ok made) :
    ∃ dir last, p.pieces.getLast? = some last ∧ isReference last = false ∧
      tree.directoryOf p = .ok dir ∧ tooLong last = false ∧
      tree.kind (dir ++ [last]) = .missing ∧ made = tree.set (dir ++ [last]) (.directory []) := by
  rw [makeDirectory_eq] at h
  obtain ⟨-, ⟨-, h⟩ | ⟨dir, last, hlast, hdir, h⟩⟩ := atEntry_eq_ok h
  · cases h
  · split at h
    · cases h
    · rename_i href
      split at h
      · cases h
      · rename_i hlong
        split at h
        · rename_i hmissing
          exact ⟨dir, last, hlast, by simpa using href, hdir, by simpa using hlong, hmissing,
            (Except.ok.inj h).symm⟩
        · cases h

/-- A file is written where no directory stands, in a directory, and the path ends in a name. -/
theorem write_eq_ok {tree written : Tree} {p : Path} {content : ByteArray}
    (h : tree.write p content = .ok written) :
    checkPath p = .ok () ∧ p.endsInSlash = false ∧
      ∃ dir last, p.pieces.getLast? = some last ∧ isReference last = false ∧
        tree.directoryOf p = .ok dir ∧ tooLong last = false ∧
        tree.kind (dir ++ [last]) ≠ .directory ∧
        written = tree.set (dir ++ [last]) (.file content) := by
  rw [write_eq] at h
  obtain ⟨hcheck, ⟨-, h⟩ | ⟨dir, last, hlast, hdir, h⟩⟩ := atEntry_eq_ok h
  · cases h
  · split at h
    · cases h
    · rename_i href
      rw [Bool.or_eq_true, not_or, Bool.not_eq_true, Bool.not_eq_true] at href
      split at h
      · cases h
      · rename_i hlong
        split at h
        · cases h
        · rename_i hkind
          exact ⟨hcheck, href.2, dir, last, hlast, href.1, hdir, by simpa using hlong, hkind,
            (Except.ok.inj h).symm⟩

/-- A file is moved to where no directory stands, in a directory. -/
theorem moveFile_eq (tree : Tree) (source target : Path) :
    tree.moveFile source target = tree.locate source >>= fun origin =>
      tree.atEntry target (.error .busy) fun dir last kind =>
        if isReference last then .error .busy
        else if tooLong last then .error .nameTooLong
        else if target.endsInSlash then .error .notADirectory
        else if kind = .directory then .error .isADirectory
        else match tree.at? origin with
          | some node => .ok ((tree.without origin).set (dir ++ [last]) node)
          | none => .error .notFound := by
  unfold moveFile
  congr 1
  funext origin
  refine lastEntry_bind tree target _ _ _ rfl ?_
  intro dir entries last
  show (if isReference last then _ else _) = if isReference last then _ else _
  cases Node.entry? last entries with
  | none =>
      cases tree.at? origin with
      | none => simp [NodeKind.of]
      | some moved =>
          simp only [NodeKind.of, reduceCtorEq, if_false]
          rfl
  | some node =>
      cases node with
      | file content =>
          cases tree.at? origin with
          | none => simp [NodeKind.of]
          | some moved =>
              simp only [NodeKind.of, reduceCtorEq, if_false]
              rfl
      | directory entries => simp [NodeKind.of]

/-- A file that is moved is taken from its place and put in the directory of the target, where no
directory has its name. -/
theorem moveFile_eq_ok {tree moved : Tree} {source target : Path}
    (h : tree.moveFile source target = .ok moved) :
    ∃ origin node dir last, tree.locate source = .ok origin ∧ tree.at? origin = some node ∧
      target.pieces.getLast? = some last ∧ isReference last = false ∧
      tree.directoryOf target = .ok dir ∧ tree.kind (dir ++ [last]) ≠ .directory ∧
      moved = (tree.without origin).set (dir ++ [last]) node := by
  rw [moveFile_eq] at h
  obtain ⟨origin, horigin, h⟩ := bind_eq_ok h
  obtain ⟨-, ⟨-, h⟩ | ⟨dir, last, hlast, hdir, h⟩⟩ := atEntry_eq_ok h
  · cases h
  · split at h
    · cases h
    · rename_i href
      split at h
      · cases h
      · split at h
        · cases h
        · split at h
          · cases h
          · rename_i hkind
            split at h
            · rename_i node hnode
              exact ⟨origin, node, dir, last, horigin, hnode, hlast, by simpa using href, hdir,
                hkind, (Except.ok.inj h).symm⟩
            · cases h

/-- A file that is moved is missing where it was and stands at its new place. -/
theorem kind_move {tree : Tree} {origin dir : List Name} {last : Name} {content : ByteArray}
    (horigin : tree.kind origin = .file content) (hne : origin ≠ [])
    (hdir : tree.kind dir = .directory) (htarget : tree.kind (dir ++ [last]) ≠ .directory)
    (place : List Name) :
    ((tree.without origin).set (dir ++ [last]) (.file content)).kind place =
      if place = dir ++ [last] then .file content
      else if place = origin then .missing else tree.kind place := by
  have hwithout : ∀ other, (tree.without origin).kind other =
      if other = origin then .missing else tree.kind other :=
    kind_without hne (by simp [horigin])
  have hdirne : dir ≠ origin := by
    rintro rfl
    simp [hdir] at horigin
  have hdir' : (tree.without origin).kind dir = .directory := by
    rw [hwithout, if_neg hdirne, hdir]
  have htarget' : (tree.without origin).kind (dir ++ [last]) ≠ .directory := by
    rw [hwithout]
    split
    · simp
    · exact htarget
  rw [kind_set_file content hdir' htarget', hwithout]

/-! ## Names without `..` -/

/-- Names that go down only. -/
def Plain (names : List Name) : Prop :=
  ∀ name ∈ names, isReference name = false

/-- Names that all are short enough for an entry. -/
def Fit (names : List Name) : Prop :=
  ∀ name ∈ names, tooLong name = false

/-- The names of a path go down exactly if none of them is `..`. -/
theorem plain_names_iff {p : Path} : Plain p.names ↔ ['.', '.'] ∉ p.names := by
  constructor
  · intro h hmem
    exact absurd (h _ hmem) (by decide)
  · intro h name hname
    refine isReference_eq_false.2 ⟨Path.ne_dot_of_mem_names hname, ?_⟩
    rintro rfl
    exact h hname

/-- Names go down exactly if those in front and those behind them do. -/
theorem plain_append {front rest : List Name} :
    Plain (front ++ rest) ↔ Plain front ∧ Plain rest := by
  simp only [Plain, List.mem_append, or_imp, forall_and]

/-- With one more name all go down exactly if it is neither `.` nor `..`. -/
theorem plain_concat {front : List Name} {last : Name} :
    Plain (front ++ [last]) ↔ Plain front ∧ isReference last = false := by
  simp only [Plain, List.mem_append, List.mem_singleton, or_imp, forall_and, forall_eq]

/-- With one more name all are short enough exactly if it is. -/
theorem fit_concat {front : List Name} {last : Name} :
    Fit (front ++ [last]) ↔ Fit front ∧ tooLong last = false := by
  simp only [Fit, List.mem_append, List.mem_singleton, or_imp, forall_and, forall_eq]

/-- Names that go down lead to the place below. -/
theorem foldl_climb {names : List Name} (h : Plain names) (place : List Name) :
    names.foldl climb place = place ++ names := by
  induction names generalizing place with
  | nil => simp
  | cons name names ih =>
      have hname := (isReference_eq_false.1 (h name (by simp))).2
      have hnames : Plain names := fun other hother => h other (by simp [hother])
      rw [List.foldl_cons, climb, if_neg hname, ih hnames, List.append_assoc]
      rfl

/-- A path that goes down asks for the place below its start. -/
theorem placeOf_of_plain {p : Path} (h : Plain p.names) (tree : Tree) :
    tree.placeOf p = tree.start p ++ p.names :=
  foldl_climb h _

/-- A name that goes down is followed from a directory unless it is too long. -/
theorem enter_cons_of_plain {name : Name} (h : isReference name = false) (tree : Tree)
    (place names : List Name) (hdir : tree.kind place = .directory) :
    tree.enter place (name :: names) =
      if tooLong name then .error .nameTooLong else tree.enter (place ++ [name]) names := by
  obtain ⟨hdot, hup⟩ := isReference_eq_false.1 h
  rw [enter_cons, hdir]
  simp only [if_neg hdot, if_neg hup]

/-- A directory below another one is entered exactly if it stands at the place that the names give
and the names fit. -/
theorem enter_eq_ok_iff {tree : Tree} {place names dir : List Name} (hplain : Plain names) :
    tree.enter place names = .ok dir ↔
      dir = place ++ names ∧ Fit names ∧ tree.kind (place ++ names) = .directory := by
  induction names generalizing place with
  | nil =>
      rw [enter_nil, List.append_nil]
      have hfit : Fit [] := fun name hname => absurd hname List.not_mem_nil
      cases tree.kind place <;> simp [hfit, eq_comm]
  | cons name names ih =>
      have hnames : Plain names := fun other hother => hplain other (by simp [hother])
      by_cases hdir : tree.kind place = .directory
      · rw [enter_cons_of_plain (hplain name (by simp)) tree place names hdir]
        by_cases hlong : tooLong name = true
        · simp [Fit, hlong]
        · rw [if_neg hlong, ih hnames]
          simp [Fit, hlong]
      · have hmissing : tree.kind (place ++ name :: names) = .missing := kind_below (by simp) hdir
        rw [hmissing]
        constructor
        · intro h
          exact absurd (kind_of_enter_eq_ok h) hdir
        · rintro ⟨-, -, h⟩
          cases h

/-- The directory above what is there is entered along names that fit. -/
theorem enter_of_ne_missing {tree : Tree} {place names : List Name} {last : Name}
    (hplain : Plain (names ++ [last])) (hfit : Fit (names ++ [last]))
    (h : tree.kind (place ++ (names ++ [last])) ≠ .missing) :
    tree.enter place names = .ok (place ++ names) := by
  rw [← List.append_assoc] at h
  exact (enter_eq_ok_iff (plain_concat.1 hplain).1).2
    ⟨rfl, (fit_concat.1 hfit).1, kind_of_append_ne_missing (by simp) h⟩

/-- The directory and the last piece of a path that ends in a name are those of its names. -/
theorem directoryOf_eq {tree : Tree} {p : Path} {front : List Name} {last : Name}
    (hend : p.pieces.getLast? = p.names.getLast?) (hnames : p.names = front ++ [last]) :
    p.pieces.getLast? = some last ∧ tree.directoryOf p = tree.enter (tree.start p) front := by
  have hlast : p.pieces.getLast? = some last := by
    rw [hend, hnames, List.getLast?_concat]
  obtain ⟨pieces, hpieces⟩ := List.getLast?_eq_some_iff.1 hlast
  have hdot : last ≠ ['.'] := by
    refine Path.ne_dot_of_mem_names (p := p) ?_
    simp [hnames]
  refine ⟨hlast, ?_⟩
  rw [Path.names_eq_filter, hpieces, List.filter_append,
    List.filter_cons_of_pos (by simpa using hdot), List.filter_nil] at hnames
  rw [directoryOf, hpieces, List.dropLast_concat, ← (List.append_inj' hnames rfl).1, enter_filter]

/-- A file is read by a plain path exactly if it stands at the place that the names give, the names
fit and the path ends in one. -/
theorem read_eq_ok_iff {tree : Tree} {p : Path} (hplain : Plain p.names) {content : ByteArray} :
    tree.read p = .ok content ↔
      checkPath p = .ok () ∧ p.EndsInName ∧ Fit p.names ∧
        tree.kind (tree.start p ++ p.names) = .file content := by
  constructor
  · intro h
    obtain ⟨hcheck, hend, hkind, dir, last, hlast, href, hlong, hdir⟩ := read_eq_ok h
    rw [placeOf_of_plain hplain] at hkind
    refine ⟨hcheck, hend, ?_, hkind⟩
    have hnames := names_of_getLast? hlast href
    rw [directoryOf, ← enter_filter] at hdir
    rw [hnames] at hplain ⊢
    exact fit_concat.2 ⟨((enter_eq_ok_iff (plain_append.1 hplain).1).1 hdir).2.1, hlong⟩
  · rintro ⟨hcheck, hend, hfit, hkind⟩
    obtain ⟨hslash, hlast, hne⟩ := hend
    obtain ⟨front, last, hnames⟩ := Path.exists_lastName hne
    obtain ⟨hlast', hdirectory⟩ : p.pieces.getLast? = some last ∧
        tree.directoryOf p = tree.enter (tree.start p) front := directoryOf_eq hlast hnames
    rw [hnames] at hplain hfit hkind
    have henter : tree.directoryOf p = .ok (tree.start p ++ front) :=
      hdirectory.trans (enter_of_ne_missing hplain hfit (by simp [hkind]))
    have href := (plain_concat.1 hplain).2
    have hlong := (fit_concat.1 hfit).2
    rw [← List.append_assoc] at hkind
    rw [read_eq, atEntry_eq hcheck hlast' henter, href, hlong, hkind, hslash]
    rfl

end Vendoring.Tree
