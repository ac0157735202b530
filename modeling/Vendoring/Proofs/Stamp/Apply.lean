import Vendoring.Proofs.Stamp.Lines
import Vendoring.Proofs.Update.Beside
import Vendoring.Sync

/-!
# What stamping leaves behind

Stamping a file changes nothing, or it puts the stamp on a text without it (`apply_cases`). What was
stamped is left as it is when it is stamped again (`apply_of_stamped`), and a file that lost its
stamp gets it again (`apply_of_lost`).
-/

namespace Vendoring

/-! ## Texts of files -/

/-- Bytes are decoded to the text that they encode. -/
theorem Text.decode_eq_ok_iff {bytes : ByteArray} {text : String} :
    Text.decode bytes = .ok text ↔ bytes = text.toUTF8 := by
  unfold Text.decode
  constructor
  · intro h
    split at h
    · rename_i found hfound
      obtain rfl := Except.ok.inj h
      unfold String.fromUTF8? at hfound
      split at hfound
      · rw [← Option.some.inj hfound]
        rfl
      · cases hfound
    · cases h
  · rintro rfl
    have hvalid : String.fromUTF8? text.toUTF8 = some text := by
      unfold String.fromUTF8?
      rw [dif_pos (show text.toUTF8.IsValidUTF8 from text.isValidUTF8)]
      rfl
    rw [hvalid]

/-- A text is read exactly where its bytes are. -/
theorem Tree.readText?_eq_some_iff {tree : Tree} {p : Path} {text : String} :
    tree.readText? p = .ok (some text) ↔ tree.read p = .ok text.toUTF8 := by
  unfold Tree.readText?
  constructor
  · intro h
    split at h
    · cases h
    · cases h
    · rename_i content hread
      split at h
      · rename_i found hfound
        obtain rfl := Option.some.inj (Except.ok.inj h)
        rw [hread, Text.decode_eq_ok_iff.1 hfound]
      · cases h
  · intro h
    rw [h]
    simp only [Text.decode_eq_ok_iff.2 rfl]

/-- The text of the target of a stamp is that of the file. -/
theorem Stamp.target?_eq_some_iff {tree : Tree} {p : Path} {text : String} :
    Stamp.target? tree p = .ok (some text) ↔ tree.read p = .ok text.toUTF8 := by
  rw [← Tree.readText?_eq_some_iff]
  unfold Stamp.target? Tree.readText?
  cases tree.read p with
  | error cause => cases cause <;> simp
  | ok content =>
      simp only
      cases Text.decode content <;> simp

/-- There is no target of a stamp just if nothing is there. -/
theorem Stamp.target?_eq_none_iff {tree : Tree} {p : Path} :
    Stamp.target? tree p = .ok none ↔ tree.read p = .error .notFound := by
  unfold Stamp.target?
  cases tree.read p with
  | error cause => cases cause <;> simp
  | ok content =>
      simp only
      cases Text.decode content <;> simp

/-- Stamping tells that the target is missing just if nothing is there. -/
theorem Stamp.apply_eq_targetMissing_iff {tree : Tree} {p : Path} {beginning line : String} :
    (Stamp.apply tree p beginning line).1 = .ok .targetMissing ↔
      tree.read p = .error .notFound := by
  rw [← Stamp.target?_eq_none_iff]
  unfold Stamp.apply
  cases Stamp.target? tree p with
  | error error => simp
  | ok found =>
      cases found with
      | none => simp
      | some text =>
          simp only
          split
          · simp
          · split <;> simp

/-! ## Stamped files -/

namespace Stamp

/-- The second tree is the first one with a file, which had the text, updated to another. -/
structure Stamped (s t : Tree) (p : Path) (text fresh : String) : Prop where
  read : s.read p = .ok text.toUTF8
  writable : s.Writable p
  changed : ¬ s.Holds p fresh.toUTF8
  update : t = (s.update p fresh false).2
  written : s.Written t p fresh.toUTF8

/-- A text with a line on top instead of its stamps. -/
def fresh (beginning line text : String) : String :=
  String.ofList (stamped beginning.toList line.toList text.toList)

/-- What stamping leaves behind if the target has a text. -/
theorem apply_of_read {tree : Tree} {p : Path} {beginning line text : String}
    (h : tree.read p = .ok text.toUTF8) :
    (apply tree p beginning line).2 =
      if isStamped beginning.toList line.toList text.toList then tree
      else (tree.update p (fresh beginning line text) false).2 := by
  unfold apply
  rw [target?_eq_some_iff.2 h]
  simp only
  split
  · rfl
  · rw [fresh]
    split <;> rename_i hupdate <;> rw [hupdate]

/-- Stamping changes nothing, or it puts the stamp on a text without it. -/
theorem apply_cases {tree : Tree} {p : Path} (hplain : Tree.Plain p.names)
    (beginning line : String) :
    (apply tree p beginning line).2 = tree ∨
      ∃ text, isStamped beginning.toList line.toList text.toList = false ∧
        Stamped tree (apply tree p beginning line).2 p text (fresh beginning line text) := by
  by_cases htext : ∃ text : String, tree.read p = .ok text.toUTF8
  · obtain ⟨text, hread⟩ := htext
    rw [apply_of_read hread]
    by_cases hstamped : isStamped beginning.toList line.toList text.toList = true
    · exact Or.inl (if_pos hstamped)
    rw [if_neg hstamped]
    rcases Tree.update_of_read hplain hread (fresh beginning line text) with
      hsame | ⟨hwritable, hchanged, hwritten⟩
    · exact Or.inl hsame
    · exact Or.inr ⟨text, by simpa using hstamped, hread, hwritable, hchanged, rfl, hwritten⟩
  · left
    unfold apply
    split
    · rfl
    · rfl
    · rename_i text htarget
      exact absurd ⟨text, target?_eq_some_iff.1 htarget⟩ htext

/-- Stamping keeps every directory, and every file that stands neither at the place of the target
nor at that of its staging file. -/
theorem apply_keeps (tree : Tree) {p : Path} (hplain : Tree.Plain p.names)
    (beginning line : String) :
    (apply tree p beginning line).2.here = tree.here ∧
      (∀ place, tree.kind place = .directory →
        (apply tree p beginning line).2.kind place = .directory) ∧
      ∀ place, place ≠ tree.placeOf p → place ≠ tree.placeOf p.staging →
        ∀ content, tree.kind place = .file content →
          (apply tree p beginning line).2.kind place = .file content := by
  rcases apply_cases hplain beginning line with hsame | ⟨text, -, hput⟩
  · rw [hsame]
    exact ⟨rfl, fun _ h => h, fun _ _ _ _ h => h⟩
  · have hne := hput.writable.ending.2.2
    obtain ⟨hhere, hchange⟩ := tree.update_change hplain hne (fresh beginning line text)
    rw [hput.update]
    refine ⟨hhere, fun place => (hchange place).of_directory, ?_⟩
    intro place htarget hstaging content
    rw [Tree.placeOf_of_plain hplain] at htarget
    rw [Tree.placeOf_of_plain (Tree.plain_staging hplain hne), Tree.start_staging tree hne]
      at hstaging
    exact (tree.file_update hplain hne _ htarget hstaging content).2

variable {s t u : Tree} {p : Path} {beginning line text : String}

/-- A file that was stamped is left as it is. -/
theorem apply_of_stamped (hplain : Tree.Plain p.names)
    (hstamped : isStamped beginning.toList line.toList
      (fresh beginning line text).toList = true)
    (h : Stamped s t p text (fresh beginning line text)) : (apply t p beginning line).2 = t := by
  rw [apply_of_read (h.written.holds hplain h.writable), if_pos hstamped]

/-- A file that lost its stamp gets it again. -/
theorem apply_of_lost (hplain : Tree.Plain p.names)
    (hunstamped : isStamped beginning.toList line.toList text.toList = false)
    (h : Stamped s t p text (fresh beginning line text)) (hu : t.Written u p text.toUTF8) :
    (apply u p beginning line).2.Alike t := by
  have hwritable : t.Writable p := h.written.writable h.writable
  have hread : u.read p = .ok text.toUTF8 := hu.holds hplain hwritable
  rw [apply_of_read hread, if_neg (by simp [hunstamped])]
  rcases Tree.update_cases u hplain h.writable.ending.2.2 (fresh beginning line text) with
    ⟨⟨old, hold, hdigest⟩, -⟩ | ⟨-, ⟨-, v, hupdate, hv⟩ | ⟨hno, -⟩⟩
  · rw [hread] at hold
    obtain rfl := Except.ok.inj hold
    exact absurd ⟨_, h.read, hdigest⟩ h.changed
  · rw [hupdate]
    exact h.written.again hu hv
  · exact absurd (hu.writable hwritable) hno

/-- A path that reads the same before and after the stamp reads the same when the stamp is lost. -/
theorem readText?_of_lost (hplain : Tree.Plain p.names) {fresh : String}
    (h : Stamped s t p text fresh) (hu : t.Written u p text.toUTF8) {q : Path}
    (hq : t.readText? q = s.readText? q) : u.readText? q = s.readText? q := by
  have hform := h.written.form hu
  rcases Tree.read_forms q hu.here (fun place => (hform place).1.symm) with
    ⟨cause, ht, hu'⟩ | ⟨old, new, ht, hu', hkind, hkind'⟩
  · rw [← hq]
    unfold Tree.readText?
    rw [ht, hu']
  · by_cases hplace : t.placeOf q = s.start p ++ p.names
    -- such a path would have read the stamp and what it replaced alike
    · rw [hplace, h.written.kind, if_pos rfl] at hkind
      obtain rfl := NodeKind.file.inj hkind
      rw [Tree.readText?_eq_some_iff.2 ht] at hq
      have hs := (Tree.read_eq_ok (Tree.readText?_eq_some_iff.1 hq.symm)).2.2.1
      have hsame : s.kind (s.start p ++ p.names) = .file text.toUTF8 :=
        ((Tree.read_eq_ok_iff hplain).1 h.read).2.2.2
      rw [← Tree.placeOf_congr h.written.here, hplace, hsame] at hs
      exact absurd ⟨_, h.read, by rw [NodeKind.file.inj hs]⟩ h.changed
    · rw [(hform _).2 hplace, hkind] at hkind'
      obtain rfl := NodeKind.file.inj hkind'
      rw [← hq]
      unfold Tree.readText?
      rw [ht, hu']

end Stamp

end Vendoring
