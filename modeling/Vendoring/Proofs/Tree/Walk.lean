import Vendoring.Proofs.Path.Names
import Vendoring.Proofs.Tree.Kind

/-!
# Following paths

What the operations on a tree find is told by the kinds of places. `enter` follows pieces to a
directory, and an operation is an `enter` for the directory of its path with a look at one entry
there (`read_eq`, `makeDirectory_eq`, `write_eq`).
-/

namespace Vendoring

/-- The place of what stands there, for a path that asks for a directory or not. -/
def NodeKind.located (slash : Bool) (place : List Name) :
    NodeKind → Except IoError (List Name)
  | .file _ => if slash then .error .notADirectory else .ok place
  | _ => .ok place

/-- The bytes of what stands there, for a path that asks for a directory or not. -/
def NodeKind.content (slash : Bool) : NodeKind → Except IoError ByteArray
  | .missing => .error .notFound
  | .directory => .error .isADirectory
  | .file content => if slash then .error .notADirectory else .ok content

namespace Tree

/-! ## Entering directories -/

/-- Follow pieces from a place to a directory. -/
def enter (tree : Tree) (place pieces : List Name) : Except IoError (List Name) := do
  let dir ← tree.walk place pieces
  match tree.kind dir with
  | .missing => .error .notFound
  | .file _ => .error .notADirectory
  | .directory => .ok dir

/-- Where a name leads from a place. -/
def climb (place : List Name) (name : Name) : List Name :=
  if name = ['.', '.'] then place.dropLast else place ++ [name]

/-- After a step that succeeds the computation goes on with its result. -/
theorem ok_bind {α β : Type} (a : α) (f : α → Except IoError β) : Except.ok a >>= f = f a :=
  rfl

/-- The place a path asks for, whether something is there or not. -/
def placeOf (tree : Tree) (p : Path) : List Name :=
  p.names.foldl climb (tree.start p)

/-- Where a path starts is told by the working directory. -/
theorem start_congr {s t : Tree} (h : t.here = s.here) (p : Path) : t.start p = s.start p := by
  unfold start
  rw [h]

/-- Paths start from the same place if both are absolute or neither is. -/
theorem start_of_isAbsolute {tree : Tree} {p q : Path} (h : q.isAbsolute = p.isAbsolute) :
    tree.start q = tree.start p := by
  unfold start
  rw [h]

/-- The place that a path asks for is told by the working directory. -/
theorem placeOf_congr {s t : Tree} (h : t.here = s.here) (p : Path) :
    t.placeOf p = s.placeOf p := by
  unfold placeOf
  rw [start_congr h]

/-- A piece is followed by the kinds of the place and of the place it leads to. -/
theorem step_eq (tree : Tree) (place : List Name) (piece : Name) :
    tree.step place piece =
      match tree.kind place with
      | .missing => .error .notFound
      | .file _ => .error .notADirectory
      | .directory =>
        if piece = ['.'] then .ok place
        else if piece = ['.', '.'] then .ok place.dropLast
        else if tooLong piece then .error .nameTooLong
        else if tree.kind (place ++ [piece]) = .missing then .error .notFound
        else .ok (place ++ [piece]) := by
  unfold step
  cases hnode : tree.at? place with
  | none => rw [kind_eq_missing.2 hnode]
  | some node =>
      cases node with
      | file content => rw [kind_eq_file.2 hnode]
      | directory entries =>
          rw [kind_eq_directory.2 ⟨entries, hnode⟩, kind_concat hnode]
          show (if piece = ['.'] then _ else _) = if piece = ['.'] then _ else _
          cases Node.entry? piece entries with
          | none => simp [NodeKind.of]
          | some node => cases node <;> simp [NodeKind.of]

/-- Without pieces to follow a directory is asked for at the place itself. -/
theorem enter_nil (tree : Tree) (place : List Name) :
    tree.enter place [] =
      match tree.kind place with
      | .missing => .error .notFound
      | .file _ => .error .notADirectory
      | .directory => .ok place :=
  rfl

/-- Nothing is entered from a missing place. -/
theorem enter_of_missing {tree : Tree} {place : List Name} (h : tree.kind place = .missing)
    (pieces : List Name) : tree.enter place pieces = .error .notFound := by
  cases pieces with
  | nil => rw [enter_nil, h]
  | cons piece pieces =>
      show (tree.step place piece >>= fun next => tree.walk next pieces) >>= _ = _
      rw [step_eq, h]
      rfl

/-- Pieces are entered one after the other, each from a directory. -/
theorem enter_cons (tree : Tree) (place : List Name) (piece : Name) (pieces : List Name) :
    tree.enter place (piece :: pieces) =
      match tree.kind place with
      | .missing => .error .notFound
      | .file _ => .error .notADirectory
      | .directory =>
        if piece = ['.'] then tree.enter place pieces
        else if piece = ['.', '.'] then tree.enter place.dropLast pieces
        else if tooLong piece then .error .nameTooLong
        else tree.enter (place ++ [piece]) pieces := by
  have hstep : tree.enter place (piece :: pieces) =
      tree.step place piece >>= fun next => tree.enter next pieces := by
    show (tree.step place piece >>= fun next => tree.walk next pieces) >>= _ = _
    rw [bind_assoc]
    rfl
  rw [hstep, step_eq]
  cases tree.kind place with
  | missing => rfl
  | file content => rfl
  | directory =>
      by_cases hdot : piece = ['.']
      · simp only [if_pos hdot]
        rfl
      by_cases hup : piece = ['.', '.']
      · simp only [if_neg hdot, if_pos hup]
        rfl
      by_cases hlong : tooLong piece
      · simp only [if_neg hdot, if_neg hup, if_pos hlong]
        rfl
      by_cases hmissing : tree.kind (place ++ [piece]) = .missing
      · simp only [if_neg hdot, if_neg hup, if_neg hlong, if_pos hmissing,
          enter_of_missing hmissing]
        rfl
      · simp only [if_neg hdot, if_neg hup, if_neg hlong, if_neg hmissing]
        rfl

/-- Pieces are followed one after the other, through directories. -/
theorem enter_append (tree : Tree) (place front rest : List Name) :
    tree.enter place (front ++ rest) =
      tree.enter place front >>= fun dir => tree.enter dir rest := by
  induction front generalizing place with
  | nil =>
      rw [List.nil_append, enter_nil]
      cases hkind : tree.kind place with
      | missing => exact enter_of_missing hkind rest
      | file content =>
          cases rest with
          | nil => simp [enter_nil, hkind, bind, Except.bind]
          | cons piece rest => simp [enter_cons, hkind, bind, Except.bind]
      | directory => rfl
  | cons piece front ih =>
      rw [List.cons_append, enter_cons, enter_cons]
      cases tree.kind place with
      | missing => rfl
      | file content => rfl
      | directory =>
          simp only [ih]
          split
          · rfl
          · split
            · rfl
            · split <;> rfl

/-- Pieces that are `.` say nothing on the way to a directory. -/
theorem enter_filter (tree : Tree) (place pieces : List Name) :
    tree.enter place (pieces.filter (· ≠ ['.'])) = tree.enter place pieces := by
  induction pieces generalizing place with
  | nil => rfl
  | cons piece pieces ih =>
      by_cases hdot : piece = ['.']
      · rw [List.filter_cons_of_neg (by simp [hdot]), ih, enter_cons, if_pos hdot]
        cases hkind : tree.kind place with
        | missing => exact enter_of_missing hkind pieces
        | file content =>
            cases pieces with
            | nil => rw [enter_nil, hkind]
            | cons piece pieces => rw [enter_cons, hkind]
        | directory => rfl
      · rw [List.filter_cons_of_pos (by simp [hdot]), enter_cons, enter_cons]
        simp only [ih]

/-- What is entered is a directory, at the place to which the names lead. -/
theorem enter_eq_ok {tree : Tree} {place pieces dir : List Name}
    (h : tree.enter place pieces = .ok dir) :
    dir = (pieces.filter (· ≠ ['.'])).foldl climb place ∧ tree.kind dir = .directory := by
  induction pieces generalizing place with
  | nil =>
      rw [enter_nil] at h
      cases hkind : tree.kind place <;> rw [hkind] at h
      · cases h
      · cases h
        exact ⟨rfl, hkind⟩
      · cases h
  | cons piece pieces ih =>
      rw [enter_cons] at h
      cases hkind : tree.kind place <;> simp only [hkind] at h
      · cases h
      · by_cases hdot : piece = ['.']
        · rw [if_pos hdot] at h
          rw [List.filter_cons_of_neg (by simp [hdot])]
          exact ih h
        rw [if_neg hdot] at h
        rw [List.filter_cons_of_pos (by simp [hdot]), List.foldl_cons, climb]
        by_cases hup : piece = ['.', '.']
        · rw [if_pos hup] at h ⊢
          exact ih h
        rw [if_neg hup] at h ⊢
        by_cases hlong : tooLong piece
        · rw [if_pos hlong] at h
          cases h
        · rw [if_neg hlong] at h
          exact ih h
      · cases h

/-- Nothing is entered unless there is a directory to start from. -/
theorem kind_of_enter_eq_ok {tree : Tree} {place pieces dir : List Name}
    (h : tree.enter place pieces = .ok dir) : tree.kind place = .directory := by
  cases pieces with
  | nil =>
      rw [enter_nil] at h
      cases hkind : tree.kind place <;> rw [hkind] at h <;> first | rfl | cases h
  | cons piece pieces =>
      rw [enter_cons] at h
      cases hkind : tree.kind place <;> simp only [hkind] at h <;> first | rfl | cases h

/-! ## The directory of a path -/

/-- The directory that the last piece of a path is looked up in. -/
def directoryOf (tree : Tree) (p : Path) : Except IoError (List Name) :=
  tree.enter (tree.start p) p.pieces.dropLast

/-- Look at the entry that a path names: its directory, its last piece and the kind of what is
there. A path without pieces has no entry. -/
def atEntry {α : Type} (tree : Tree) (p : Path) (missing : Except IoError α)
    (look : List Name → Name → NodeKind → Except IoError α) : Except IoError α :=
  match checkPath p with
  | .error cause => .error cause
  | .ok () =>
    match p.pieces.getLast? with
    | none => missing
    | some last =>
      match tree.directoryOf p with
      | .error cause => .error cause
      | .ok dir => look dir last (tree.kind (dir ++ [last]))

/-- What is done with the last entry of a path is told by the kind of what is there. -/
theorem lastEntry_bind {α : Type} (tree : Tree) (p : Path) (missing : Except IoError α)
    (look : List Name → Name → NodeKind → Except IoError α)
    (act : Option (List Name × List (Name × Node) × Name) → Except IoError α)
    (hnone : act none = missing)
    (hsome : ∀ dir entries last, act (some (dir, entries, last)) =
      look dir last (.of (Node.entry? last entries))) :
    tree.lastEntry p >>= act = tree.atEntry p missing look := by
  unfold lastEntry atEntry
  cases checkPath p with
  | error cause => rfl
  | ok _ =>
      cases p.pieces.getLast? with
      | none => exact hnone
      | some last =>
          show ((tree.walk _ _ >>= _) >>= _) = _
          unfold directoryOf enter
          cases tree.walk (tree.start p) p.pieces.dropLast with
          | error cause => rfl
          | ok dir =>
              cases hnode : tree.at? dir with
              | none =>
                  simp [hnode, kind_eq_missing.2 hnode, bind, Except.bind]
              | some node =>
                  cases node with
                  | file content =>
                      simp [hnode, kind_eq_file.2 hnode, bind, Except.bind]
                  | directory entries =>
                      have hdirectory := kind_eq_directory.2 ⟨entries, hnode⟩
                      simp [hnode, hdirectory, kind_concat hnode, hsome, bind, Except.bind]

/-- The last piece is followed from the directory of the ones in front of it. -/
theorem walk_concat (tree : Tree) (place front : List Name) (last : Name) :
    tree.walk place (front ++ [last]) =
      tree.enter place front >>= fun dir => tree.step dir last := by
  have hwalk : tree.walk place (front ++ [last]) =
      tree.walk place front >>= fun dir => tree.step dir last := by
    unfold walk
    rw [List.foldlM_append]
    simp
  rw [hwalk]
  unfold enter
  rw [bind_assoc]
  congr 1
  funext dir
  cases hdir : tree.kind dir with
  | missing => simp [step_eq, hdir, bind, Except.bind]
  | file content => simp [step_eq, hdir, bind, Except.bind]
  | directory => rfl

/-- Above a directory there is a directory, and above the top is the top. -/
theorem kind_dropLast {tree : Tree} {dir : List Name} (h : tree.kind dir = .directory) :
    tree.kind dir.dropLast = .directory := by
  cases hdir : dir.getLast? with
  | none => simpa [List.getLast?_eq_none_iff.1 hdir] using h
  | some last =>
      obtain ⟨above, rfl⟩ := List.getLast?_eq_some_iff.1 hdir
      rw [List.dropLast_concat]
      have hbelow : tree.kind (above ++ [last]) ≠ .missing := by simp [h]
      exact kind_of_append_ne_missing (by simp) hbelow

/-- Looking up a path: it is checked, its pieces are walked, and what is there is looked at. -/
theorem locate_eq_bind (tree : Tree) (p : Path) :
    tree.locate p = checkPath p >>= fun _ =>
      tree.walk (tree.start p) p.pieces >>= fun place =>
        (tree.kind place).located p.endsInSlash place := by
  unfold locate kind
  congr 1
  funext _
  congr 1
  funext place
  cases tree.at? place with
  | none => rfl
  | some node => cases node <;> rfl

/-- What a path is located at is told by the kind of its entry. -/
theorem locate_eq (tree : Tree) (p : Path) :
    tree.locate p = tree.atEntry p ((tree.kind (tree.start p)).located p.endsInSlash (tree.start p))
      fun dir last kind =>
        if last = ['.'] then .ok dir
        else if last = ['.', '.'] then .ok dir.dropLast
        else if tooLong last then .error .nameTooLong
        else if kind = .missing then .error .notFound
        else kind.located p.endsInSlash (dir ++ [last]) := by
  rw [locate_eq_bind]
  unfold atEntry
  cases checkPath p with
  | error cause => rfl
  | ok _ =>
      show tree.walk (tree.start p) p.pieces >>= _ = _
      cases hlast : p.pieces.getLast? with
      | none =>
          rw [List.getLast?_eq_none_iff.1 hlast]
          rfl
      | some last =>
          obtain ⟨front, hpieces⟩ := List.getLast?_eq_some_iff.1 hlast
          rw [directoryOf, hpieces, List.dropLast_concat, walk_concat]
          cases hdir : tree.enter (tree.start p) front with
          | error cause => rfl
          | ok dir =>
              have hdirectory := (enter_eq_ok hdir).2
              show tree.step dir last >>= _ = _
              rw [step_eq, hdirectory]
              by_cases hdot : last = ['.']
              · simp [hdot, hdirectory, NodeKind.located, bind, Except.bind]
              by_cases hup : last = ['.', '.']
              · simp [hup, kind_dropLast hdirectory, NodeKind.located, bind, Except.bind]
              by_cases hlong : tooLong last
              · simp [hdot, hup, hlong, bind, Except.bind]
              by_cases hmissing : tree.kind (dir ++ [last]) = .missing
              · simp [hdot, hup, hlong, hmissing, bind, Except.bind]
              · simp [hdot, hup, hlong, hmissing, bind, Except.bind]

/-- What a path reads is told by the kind of its entry. -/
theorem read_eq (tree : Tree) (p : Path) :
    tree.read p = tree.atEntry p ((tree.kind (tree.start p)).content p.endsInSlash)
      fun _ last kind =>
        if isReference last then .error .isADirectory
        else if tooLong last then .error .nameTooLong
        else kind.content p.endsInSlash := by
  have hread : tree.read p = tree.locate p >>= fun place => (tree.kind place).content false := by
    unfold read kind
    congr 1
    funext place
    cases tree.at? place with
    | none => rfl
    | some node => cases node <;> rfl
  have hcontent : ∀ place, (tree.kind place).located p.endsInSlash place >>=
      (fun place => (tree.kind place).content false) = (tree.kind place).content p.endsInSlash := by
    intro place
    cases hkind : tree.kind place <;> cases p.endsInSlash <;>
      simp [hkind, NodeKind.located, NodeKind.content, bind, Except.bind]
  rw [hread, locate_eq]
  unfold atEntry
  cases checkPath p with
  | error cause => rfl
  | ok _ =>
      cases p.pieces.getLast? with
      | none => exact hcontent _
      | some last =>
          cases hdir : tree.directoryOf p with
          | error cause => rfl
          | ok dir =>
              have hdirectory := (enter_eq_ok hdir).2
              by_cases hdot : last = ['.']
              · simp [hdot, isReference, hdirectory, NodeKind.content, bind, Except.bind]
              by_cases hup : last = ['.', '.']
              · simp [hup, isReference, kind_dropLast hdirectory, NodeKind.content, bind, Except.bind]
              by_cases hlong : tooLong last
              · simp [hdot, hup, hlong, isReference, bind, Except.bind]
              by_cases hmissing : tree.kind (dir ++ [last]) = .missing
              · simp [hdot, hup, hlong, isReference, hmissing, NodeKind.content, bind, Except.bind]
              · simpa [hdot, hup, hlong, isReference, hmissing] using hcontent (dir ++ [last])

/-- A directory is made where a path names an entry that is missing. -/
theorem makeDirectory_eq (tree : Tree) (p : Path) :
    tree.makeDirectory p = tree.atEntry p (.error .alreadyExists) fun dir last kind =>
      if isReference last then .error .alreadyExists
      else if tooLong last then .error .nameTooLong
      else if kind = .missing then .ok (tree.set (dir ++ [last]) (.directory []))
      else .error .alreadyExists := by
  refine lastEntry_bind tree p _ _ _ rfl ?_
  intro dir entries last
  show (if isReference last then _ else _) = if isReference last then _ else _
  cases Node.entry? last entries with
  | none => simp [NodeKind.of]
  | some node => cases node <;> simp [NodeKind.of]

/-- A file is written where a path names an entry that is no directory. -/
theorem write_eq (tree : Tree) (p : Path) (content : ByteArray) :
    tree.write p content = tree.atEntry p (.error .isADirectory) fun dir last kind =>
      if isReference last || p.endsInSlash then .error .isADirectory
      else if tooLong last then .error .nameTooLong
      else if kind = .directory then .error .isADirectory
      else .ok (tree.set (dir ++ [last]) (.file content)) := by
  refine lastEntry_bind tree p _ _ _ rfl ?_
  intro dir entries last
  show (if isReference last || p.endsInSlash then _ else _) =
    if isReference last || p.endsInSlash then _ else _
  cases Node.entry? last entries with
  | none => simp [NodeKind.of]
  | some node => cases node <;> simp [NodeKind.of]

end Tree

end Vendoring
