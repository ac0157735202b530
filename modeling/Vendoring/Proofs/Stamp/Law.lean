import Vendoring.Proofs.Stamp.Apply
import Vendoring.Proofs.Update.Anywhere

/-!
# The law of stamps

A stamped file has one line that begins like a stamp, the one of the label, and its other lines as
they were, with their ends; stamping it again does nothing; and nothing but the file and its staging
file is touched (`Lawful`). It follows for a history of stamps, between which the file is edited in
any way, that the file carries the stamp of the last label alone. This takes digests that tell the
bytes of the file from those that stamping would write (`Discerns`). The path of the file may be any
path.
-/

namespace Vendoring.Stamp

open Text

/-- The lines of a text that begin like a stamp, without their ends. -/
def stampLines (beginning text : String) : List (List Char) :=
  (lines text.toList).filter (beginning.toList <+: ·)

/-- The other lines of a text, with their ends. -/
def otherLines (beginning text : String) : List (List Char) :=
  (splitLines text.toList).filter (¬ beginning.toList <+: ·)

/-- The file has one line that begins like a stamp, and it says the label. -/
def Carries (tree : Tree) (target : Path) (beginning label : String) : Prop :=
  ∃ text : String, tree.read target = .ok text.toUTF8 ∧
    stampLines beginning text = [beginning.toList ++ label.toList]

/-- The second tree is the first one with the file at a path and its staging file changed. -/
structure Edited (s t : Tree) (target : Path) : Prop where
  here : t.here = s.here
  kind : ∀ place, place ≠ s.placeOf target → place ≠ s.placeOf target.staging →
    t.kind place = s.kind place

/-- The digest tells the bytes of the file from those that stamping it would write. -/
def Discerns (tree : Tree) (target : Path) (beginning label : String) : Prop :=
  ∀ text : String, tree.read target = .ok text.toUTF8 →
    tree.Discerned target (fresh beginning (line beginning label) text).toUTF8

/-- What stamping the file at a path does. -/
structure Lawful (tree : Tree) (target : Path) (beginning label : String)
    (result : Except FileError Outcome) (left : Tree) : Prop where
  stamped : result = .ok .inserted ∨ result = .ok .alreadyPresent →
    ∃ before after : String,
      tree.read target = .ok before.toUTF8 ∧ left.read target = .ok after.toUTF8 ∧
        stampLines beginning after = [beginning.toList ++ label.toList] ∧
        otherLines beginning after = otherLines beginning before
  again : result = .ok .inserted ∨ result = .ok .alreadyPresent →
    apply left target beginning (line beginning label) = (.ok .alreadyPresent, left)
  edited : Edited tree left target
  failed : (∃ error, result = .error error) ∨ result = .ok .targetMissing →
    ∀ place, place ≠ tree.placeOf target.staging → left.kind place = tree.kind place

/-- What is reached from a tree by stamping a file with labels, where the file is edited before each
of the stamps. -/
inductive History (target : Path) (beginning : String) (start : Tree) : List String → Tree → Prop
  | start : History target beginning start [] start
  | stamp {labels : List String} {label : String} {s t left : Tree} {outcome : Outcome}
      (hbefore : History target beginning start labels s) (hedited : Edited s t target)
      (hlabel : OneLine label.toList) (hdiscerns : Discerns t target beginning label)
      (hstamp : apply t target beginning (line beginning label) = (.ok outcome, left))
      (hthere : outcome ≠ .targetMissing) :
      History target beginning start (labels ++ [label]) left

/-! ## Edits -/

/-- A tree that stays as it is has an edit that changes nothing. -/
theorem Edited.refl (tree : Tree) (target : Path) : Edited tree tree target :=
  ⟨rfl, fun _ _ _ => rfl⟩

/-- Edits of one file go both ways. -/
theorem Edited.symm {s t : Tree} {target : Path} (h : Edited s t target) : Edited t s target := by
  refine ⟨h.here.symm, ?_⟩
  intro place htarget hstaging
  rw [Tree.placeOf_congr h.here] at htarget hstaging
  exact (h.kind place htarget hstaging).symm

/-- Edits of one file, one after the other, are an edit of it. -/
theorem Edited.trans {s t u : Tree} {target : Path} (h : Edited s t target)
    (h' : Edited t u target) : Edited s u target := by
  refine ⟨h'.here.trans h.here, ?_⟩
  intro place htarget hstaging
  have hkind := h.kind place htarget hstaging
  rw [← Tree.placeOf_congr h.here] at htarget hstaging
  exact (h'.kind place htarget hstaging).trans hkind

/-- Replacing a file through its staging file is an edit of it. -/
theorem Edited.of_swapped {s t : Tree} {target : Path} {content : ByteArray}
    (h : s.Swapped t target content) : Edited s t target := by
  refine ⟨h.here, ?_⟩
  intro place htarget hstaging
  rw [h.kind, if_neg htarget, if_neg hstaging]

/-! ## What stamping comes to -/

/-- What stamping a file with any line comes to, with the tree that it leaves: nothing is changed
because there is no text, it cannot be written, the line is its stamp or it has the digest of the
fresh text; or the file is replaced by the fresh text. -/
inductive Applies (tree : Tree) (target : Path) (beginning line : String) :
    Except FileError Outcome → Tree → Prop where
  | failed (error : FileError) : Applies tree target beginning line (.error error) tree
  | missing : Applies tree target beginning line (.ok .targetMissing) tree
  | present {text : String} (hread : tree.read target = .ok text.toUTF8)
      (hstamped : isStamped beginning.toList line.toList text.toList = true) :
      Applies tree target beginning line (.ok .alreadyPresent) tree
  | same {text : String} (hread : tree.read target = .ok text.toUTF8)
      (hstale : isStamped beginning.toList line.toList text.toList = false)
      (hdigest : Digest.ofContent text.toUTF8 =
        Digest.ofContent (fresh beginning line text).toUTF8) :
      Applies tree target beginning line (.ok .inserted) tree
  | written {text : String} {left : Tree} (hread : tree.read target = .ok text.toUTF8)
      (hstale : isStamped beginning.toList line.toList text.toList = false)
      (hupdate : tree.update target (fresh beginning line text) false = (.ok .written, left))
      (hswapped : tree.Swapped left target (fresh beginning line text).toUTF8) :
      Applies tree target beginning line (.ok .inserted) left

/-- Stamping comes to one of the cases. -/
theorem applies (tree : Tree) (target : Path) (beginning line : String) :
    Applies tree target beginning line (apply tree target beginning line).1
      (apply tree target beginning line).2 := by
  unfold apply
  cases htarget : target? tree target with
  | error error => exact .failed error
  | ok found =>
      cases found with
      | none => exact .missing
      | some text =>
          have hread := target?_eq_some_iff.1 htarget
          by_cases hstamped : isStamped beginning.toList line.toList text.toList = true
          · simp only [if_pos hstamped]
            exact .present hread hstamped
          have hstale := Bool.eq_false_iff.2 hstamped
          simp only [if_neg hstamped]
          rcases Tree.update_of_file hread (fresh beginning line text) with
            ⟨hsame, hupdate⟩ | ⟨error, hupdate⟩ | ⟨left, hupdate, hswapped⟩ <;>
            have happly := hupdate <;>
            rw [fresh] at happly <;>
            rw [happly]
          · exact .same hread hstale hsame
          · exact .failed error
          · exact .written hread hstale hupdate hswapped

/-- Stamping edits the file at most. -/
theorem Edited.of_apply (tree : Tree) (target : Path) (beginning line : String) :
    Edited tree (apply tree target beginning line).2 target := by
  have happlies := applies tree target beginning line
  generalize (apply tree target beginning line).1 = result at happlies
  generalize (apply tree target beginning line).2 = left at happlies ⊢
  cases happlies with
  | written hread hstale hupdate hswapped => exact Edited.of_swapped hswapped
  | failed | missing | present | same => exact Edited.refl tree target

/-! ## Lines of stamped texts -/

variable {beginning label : String}

/-- The stamp lines of a text are its stamps. -/
theorem stampLines_eq (beginning text : String) :
    stampLines beginning text = stamps beginning.toList text.toList := by
  rw [stampLines, stamps]
  refine List.filter_congr ?_
  intro l _
  rw [Bool.eq_iff_iff, isStamp_iff, decide_eq_true_iff]

/-- The other lines of a text are those that are no stamps. -/
theorem otherLines_eq (beginning text : String) :
    otherLines beginning text =
      (splitLines text.toList).filter (!isStamp beginning.toList ·) := by
  rw [otherLines]
  refine List.filter_congr ?_
  intro l _
  rw [decide_not]
  congr 1
  rw [Bool.eq_iff_iff, isStamp_iff, decide_eq_true_iff]

/-- The line of a stamp is its beginning, the label and a line feed. -/
theorem toList_line (beginning label : String) :
    (line beginning label).toList = beginning.toList ++ label.toList ++ ['\n'] := by
  simp [line, String.toList_append]

/-- A text counts as stamped exactly if the stamp of the label is its only one. -/
theorem isStamped_line (hbeginning : OneLine beginning.toList) (hlabel : OneLine label.toList)
    (text : String) :
    isStamped beginning.toList (line beginning label).toList text.toList = true ↔
      stampLines beginning text = [beginning.toList ++ label.toList] := by
  have hdrop := (bareLine_append (hbeginning.append hlabel)).2
  rw [isStamped, toList_line, hdrop, stampLines_eq, beq_iff_eq]

/-- A fresh text has the stamp of the label and the other lines of the old text. -/
theorem lines_fresh (hbeginning : OneLine beginning.toList) (hlabel : OneLine label.toList)
    (text : String) :
    stampLines beginning (fresh beginning (line beginning label) text) =
        [beginning.toList ++ label.toList] ∧
      otherLines beginning (fresh beginning (line beginning label) text) =
        otherLines beginning text := by
  constructor
  · rw [← isStamped_line hbeginning hlabel, fresh, String.toList_ofList, toList_line]
    exact isStamped_stamped hbeginning hlabel text.toList
  · have hstamp : isStamp beginning.toList (beginning.toList ++ label.toList ++ ['\n']) = true :=
      isStamp_iff.2 (by rw [List.append_assoc]; exact List.prefix_append _ _)
    rw [otherLines_eq, otherLines_eq, fresh, String.toList_ofList, toList_line, stamped,
      List.append_assoc, List.singleton_append, splitLines_line (hbeginning.append hlabel).1,
      List.filter_cons, hstamp, splitLines_unstamped, List.filter_filter]
    simp

/-! ## One stamp -/

/-- A text without the stamp has another digest than the fresh one if the digests tell them
apart. -/
theorem digest_ne_of_stale (hbeginning : OneLine beginning.toList) (hlabel : OneLine label.toList)
    {tree : Tree} {target : Path} {text : String} (hdiscerns : Discerns tree target beginning label)
    (hread : tree.read target = .ok text.toUTF8)
    (hstale : isStamped beginning.toList (line beginning label).toList text.toList = false) :
    Digest.ofContent text.toUTF8 ≠
      Digest.ofContent (fresh beginning (line beginning label) text).toUTF8 := by
  intro hsame
  have hfresh : text = fresh beginning (line beginning label) text :=
    String.toByteArray_inj.1 (hdiscerns text hread _ hread hsame)
  have hstamped := (isStamped_line hbeginning hlabel _).2 (lines_fresh hbeginning hlabel text).1
  rw [← hfresh, hstale] at hstamped
  cases hstamped

/-- A file that carries the stamp is left as it is. -/
theorem apply_of_carries (hbeginning : OneLine beginning.toList) (hlabel : OneLine label.toList)
    {tree : Tree} {target : Path} (h : Carries tree target beginning label) :
    apply tree target beginning (line beginning label) = (.ok .alreadyPresent, tree) := by
  obtain ⟨text, hread, hstamp⟩ := h
  unfold apply
  rw [target?_eq_some_iff.2 hread]
  simp only [if_pos ((isStamped_line hbeginning hlabel text).2 hstamp)]

/-- Stamping a line is lawful, if the digest tells the new text from the old one. -/
theorem apply_lawful (hbeginning : OneLine beginning.toList) (hlabel : OneLine label.toList)
    {tree : Tree} {target : Path} (hdiscerns : Discerns tree target beginning label) :
    Lawful tree target beginning label (apply tree target beginning (line beginning label)).1
      (apply tree target beginning (line beginning label)).2 := by
  have happlies := applies tree target beginning (line beginning label)
  generalize (apply tree target beginning (line beginning label)).1 = result at happlies ⊢
  generalize (apply tree target beginning (line beginning label)).2 = left at happlies ⊢
  cases happlies with
  | failed error => exact ⟨by simp, by simp, Edited.refl tree target, fun _ _ _ => rfl⟩
  | missing => exact ⟨by simp, by simp, Edited.refl tree target, fun _ _ _ => rfl⟩
  | present hread hstamped =>
      have hstamp := (isStamped_line hbeginning hlabel _).1 hstamped
      refine ⟨fun _ => ⟨_, _, hread, hread, hstamp, rfl⟩, fun _ => ?_, Edited.refl tree target,
        fun _ _ _ => rfl⟩
      exact apply_of_carries hbeginning hlabel ⟨_, hread, hstamp⟩
  | same hread hstale hdigest =>
      exact absurd hdigest (digest_ne_of_stale hbeginning hlabel hdiscerns hread hstale)
  | @written text left hread hstale hupdate hswapped =>
      obtain ⟨hstamp, hothers⟩ := lines_fresh hbeginning hlabel text
      refine ⟨fun _ => ⟨text, _, hread, hswapped.read, hstamp, hothers⟩, fun _ => ?_,
        Edited.of_swapped hswapped, by simp⟩
      exact apply_of_carries hbeginning hlabel ⟨_, hswapped.read, hstamp⟩

/-! ## Histories -/

/-- The last stamp of a history stays, and only the file and its staging file change. -/
theorem History.carries {target : Path} {start tree : Tree} {labels : List String}
    (hbeginning : OneLine beginning.toList) (h : History target beginning start labels tree) :
    Edited start tree target ∧
      ∀ label, labels.getLast? = some label → Carries tree target beginning label := by
  induction h with
  | start => exact ⟨Edited.refl start target, by simp⟩
  | @stamp labels label s t left outcome _ hedited hlabel hdiscerns hstamp hthere ih =>
      have hlawful := apply_lawful hbeginning hlabel hdiscerns
      rw [hstamp] at hlawful
      refine ⟨(ih.1.trans hedited).trans hlawful.edited, ?_⟩
      intro last hlast
      obtain rfl : label = last := by simpa using hlast
      have hdone : (Except.ok outcome : Except FileError Outcome) = .ok .inserted ∨
          (Except.ok outcome : Except FileError Outcome) = .ok .alreadyPresent := by
        cases outcome with
        | inserted => exact Or.inl rfl
        | alreadyPresent => exact Or.inr rfl
        | targetMissing => exact absurd rfl hthere
      obtain ⟨-, after, -, hread, hline, -⟩ := hlawful.stamped hdone
      exact ⟨after, hread, hline⟩

/-- Every stamp is lawful, and behind any history of stamps the file carries the last label alone,
whatever was done to it in between; nothing but it and its staging file has changed. -/
theorem stamping_lawful {beginning : String} (hbeginning : OneLine beginning.toList) :
    (∀ tree target label, OneLine label.toList → Discerns tree target beginning label →
      Lawful tree target beginning label (apply tree target beginning (line beginning label)).1
        (apply tree target beginning (line beginning label)).2) ∧
      ∀ target start tree labels label,
        History target beginning start (labels ++ [label]) tree →
          Carries tree target beginning label ∧ Edited start tree target := by
  constructor
  · intro tree target label hlabel hdiscerns
    exact apply_lawful hbeginning hlabel hdiscerns
  · intro target start tree labels label hhistory
    obtain ⟨hedited, hcarries⟩ := hhistory.carries hbeginning
    exact ⟨hcarries label (by simp), hedited⟩

/-- A text without the stamp is stamped if its staging file can be written and moved. -/
theorem apply_of_written {tree left : Tree} {target : Path} {line text : String}
    (hread : tree.read target = .ok text.toUTF8)
    (hstale : isStamped beginning.toList line.toList text.toList = false)
    (hnew : Digest.ofContent text.toUTF8 ≠ Digest.ofContent (fresh beginning line text).toUTF8)
    (hparent : tree.makeParent target = (.ok (), tree))
    (hwrite : tree.writeStaged target (fresh beginning line text).toUTF8 = (.ok (), left)) :
    apply tree target beginning line = (.ok .inserted, left) := by
  rw [fresh] at hnew hwrite
  unfold apply Tree.update
  rw [target?_eq_some_iff.2 hread, Tree.digest?_of_read hread]
  simp only [hstale, Option.some.injEq, if_neg hnew, hparent, hwrite, Bool.false_eq_true, if_false]

/-- A file with an old stamp in the middle, whose lines end in different ways. -/
def stampedTree : Tree :=
  { root := .directory [("a.cpp".toList, .file "x\r\n# old\r\ny".toUTF8)], here := [] }

/-- A label is put on the file if the digests tell the new text from the old one. -/
theorem apply_stampedTree {label : String}
    (hstale : isStamped "# ".toList (line "# " label).toList "x\r\n# old\r\ny".toList = false)
    (hnew : Digest.ofContent "x\r\n# old\r\ny".toUTF8 ≠
      Digest.ofContent (fresh "# " (line "# " label) "x\r\n# old\r\ny").toUTF8) :
    Discerns stampedTree ⟨"a.cpp"⟩ "# " label ∧
      ∃ left, apply stampedTree ⟨"a.cpp"⟩ "# " (line "# " label) = (.ok .inserted, left) := by
  have hread : stampedTree.read ⟨"a.cpp"⟩ = .ok "x\r\n# old\r\ny".toUTF8 := rfl
  constructor
  · intro text htext old hold hdigest
    rw [← target?_eq_some_iff, target?_eq_some_iff.2 hread] at htext
    obtain rfl := Option.some.inj (Except.ok.inj htext)
    obtain rfl := Except.ok.inj (hread.symm.trans hold)
    exact absurd hdigest hnew
  · have hlast : (⟨"a.cpp"⟩ : Path).pieces.getLast? = some "a.cpp".toList := rfl
    have hparent : stampedTree.makeParent ⟨"a.cpp"⟩ = (.ok (), stampedTree) :=
      Tree.makeParent_of_directoryOf rfl hlast rfl rfl
    have hwrite : ∀ content, ∃ left,
        stampedTree.writeStaged ⟨"a.cpp"⟩ content = (.ok (), left) := fun _ => ⟨_, rfl⟩
    obtain ⟨left, hleft⟩ :=
      hwrite (fresh "# " (line "# " label) "x\r\n# old\r\ny").toUTF8
    refine ⟨left, ?_⟩
    exact apply_of_written hread hstale hnew hparent hleft

/-- A stamp replaces the old one of the file, and a second label replaces it again. -/
theorem stamping_lawful_sample :
    OneLine "# ".toList ∧
      (∃ left, apply stampedTree ⟨"a.cpp"⟩ "# " (line "# " "v1") = (.ok .inserted, left) ∧
        Lawful stampedTree ⟨"a.cpp"⟩ "# " "v1" (.ok .inserted) left) ∧
      ∃ tree, History ⟨"a.cpp"⟩ "# " stampedTree ["v1", "v2"] tree ∧
        Carries tree ⟨"a.cpp"⟩ "# " "v2" ∧ Edited stampedTree tree ⟨"a.cpp"⟩ := by
  have hbeginning : OneLine "# ".toList := ⟨by decide, by decide⟩
  have hfirst : OneLine "v1".toList := ⟨by decide, by decide⟩
  obtain ⟨hdiscerns, left, hstamp⟩ :=
    apply_stampedTree (show isStamped "# ".toList (line "# " "v1").toList _ = false by decide +kernel)
      (by decide +kernel)
  obtain ⟨hdiscerns', left', hstamp'⟩ :=
    apply_stampedTree (show isStamped "# ".toList (line "# " "v2").toList _ = false by decide +kernel)
      (by decide +kernel)
  have hlawful := (stamping_lawful hbeginning).1 stampedTree ⟨"a.cpp"⟩ "v1" hfirst hdiscerns
  rw [hstamp] at hlawful
  -- the file gets its old bytes back between the stamps
  have hhistory : History ⟨"a.cpp"⟩ "# " stampedTree ["v1", "v2"] left' :=
    .stamp (.stamp .start (Edited.refl _ _) hfirst hdiscerns hstamp (by decide))
      hlawful.edited.symm ⟨by decide, by decide⟩ hdiscerns' hstamp' (by decide)
  exact ⟨hbeginning, ⟨left, hstamp, hlawful⟩, left', hhistory,
    (stamping_lawful hbeginning).2 _ _ _ ["v1"] _ hhistory⟩

end Vendoring.Stamp
