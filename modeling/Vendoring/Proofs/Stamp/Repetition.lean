import Mathlib.Logic.Function.Iterate
import Vendoring.Proofs.Stamp.Law
import Vendoring.Proofs.VersionControl.Label

/-!
# Stamping again

Stamping a file again and again is the same as stamping it once if all lines of the stamp begin like
one (`restamp_iterate`), so it is if the label is a single line (`unstamped_line_of_notMem`). A
label of several lines makes a stamp of several lines, and those that do not begin like a stamp stay
in the file and come in front of it once more with every stamp (`toList_fresh_iterate`,
`read_restamp_iterate`).

Which of the two happens is told by what the program prints: the text from which the label is taken
breaks, or it does not (`version_stamps`).
-/

namespace Vendoring

namespace Stamp

open Text VersionControl

/-- The tree behind stamping a file. -/
def restamp (target : Path) (beginning line : String) (tree : Tree) : Tree :=
  (apply tree target beginning line).2

/-- A stamp of one line, which is put once, however often the file is stamped. -/
structure Single (beginning label : String) : Prop where
  unbroken : '\n' ∉ label.toList
  lines : splitLines (line beginning label).toList = [(line beginning label).toList]
  again : ∀ target tree n, (restamp target beginning (line beginning label))^[n + 1] tree =
    restamp target beginning (line beginning label) tree

/-- A stamp of several lines. Those that do not begin like a stamp are put once more with every
stamp, which the file shows if the digests tell its texts apart. -/
structure Piling (beginning label : String) : Prop where
  broken : '\n' ∈ label.toList
  lines : splitLines (line beginning label).toList ≠ [(line beginning label).toList]
  text : ∀ text n, ((fresh beginning (line beginning label))^[n + 1] text).toList =
    (line beginning label).toList ++
      (List.replicate n (unstamped beginning.toList (line beginning label).toList)).flatten ++
      unstamped beginning.toList text.toList
  again : ∀ target tree text left n, tree.read target = .ok text.toUTF8 →
    apply tree target beginning (line beginning label) = (.ok .inserted, left) →
    (∀ k ≤ n, Digest.ofContent ((fresh beginning (line beginning label))^[k] text).toUTF8 ≠
      Digest.ofContent ((fresh beginning (line beginning label))^[k + 1] text).toUTF8) →
    ((restamp target beginning (line beginning label))^[n + 1] tree).read target =
      .ok ((fresh beginning (line beginning label))^[n + 1] text).toUTF8

/-! ## Texts -/

variable {beginning label : String}

/-- A text without its stamps that is put behind a line keeps its lines. -/
theorem unstamped_append (beginning s t : List Char) :
    unstamped beginning (s ++ '\n' :: t) =
      unstamped beginning (s ++ ['\n']) ++ unstamped beginning t := by
  rw [unstamped, splitLines_append, List.filter_append, List.flatten_append]
  rfl

/-- Behind removing the stamps there are none to remove. -/
theorem unstamped_unstamped (beginning s : List Char) :
    unstamped beginning (unstamped beginning s) = unstamped beginning s := by
  rw [unstamped, splitLines_unstamped, List.filter_filter]
  simp [unstamped]

/-- Behind a stamp the other lines are those of the stamp and of the text. -/
theorem unstamped_fresh (beginning label text : String) :
    unstamped beginning.toList (fresh beginning (line beginning label) text).toList =
      unstamped beginning.toList (line beginning label).toList ++
        unstamped beginning.toList text.toList := by
  rw [fresh, String.toList_ofList, stamped, toList_line, List.append_assoc, List.singleton_append,
    unstamped_append, unstamped_unstamped]

/-- Every stamp leaves those of its lines behind that do not begin like one. -/
theorem unstamped_fresh_iterate (beginning label text : String) (n : Nat) :
    unstamped beginning.toList ((fresh beginning (line beginning label))^[n] text).toList =
      (List.replicate n (unstamped beginning.toList (line beginning label).toList)).flatten ++
        unstamped beginning.toList text.toList := by
  induction n with
  | zero => simp
  | succ n ih =>
      rw [Function.iterate_succ_apply', unstamped_fresh, ih, List.replicate_succ, List.flatten_cons,
        List.append_assoc]

/-- Every further stamp puts the other lines of the stamp once more. -/
theorem toList_fresh_iterate (beginning label text : String) (n : Nat) :
    ((fresh beginning (line beginning label))^[n + 1] text).toList =
      (line beginning label).toList ++
        (List.replicate n (unstamped beginning.toList (line beginning label).toList)).flatten ++
        unstamped beginning.toList text.toList := by
  rw [Function.iterate_succ_apply', fresh, String.toList_ofList, stamped, unstamped_fresh_iterate,
    List.append_assoc]

/-- A stamp of one line has no other lines. -/
theorem splitLines_line_of_notMem (hbeginning : '\n' ∉ beginning.toList)
    (hlabel : '\n' ∉ label.toList) :
    splitLines (line beginning label).toList = [(line beginning label).toList] := by
  have hnone : '\n' ∉ beginning.toList ++ label.toList := by
    rw [List.mem_append, not_or]
    exact ⟨hbeginning, hlabel⟩
  rw [toList_line, splitLines_line hnone]
  simp [splitLines]

/-- A stamp of one line leaves nothing behind. -/
theorem unstamped_line_of_notMem (hbeginning : '\n' ∉ beginning.toList)
    (hlabel : '\n' ∉ label.toList) :
    unstamped beginning.toList (line beginning label).toList = [] := by
  have hstamp : isStamp beginning.toList (line beginning label).toList = true := by
    rw [isStamp_iff, toList_line, List.append_assoc]
    exact List.prefix_append _ _
  rw [unstamped, splitLines_line_of_notMem hbeginning hlabel, List.filter_cons_of_neg (by simp [hstamp])]
  rfl

/-- A label with a line feed makes a stamp of several lines. -/
theorem splitLines_line_of_mem (hlabel : '\n' ∈ label.toList) :
    splitLines (line beginning label).toList ≠ [(line beginning label).toList] := by
  obtain ⟨front, back, hsplit, -⟩ := List.eq_append_cons_of_mem hlabel
  have hline : (line beginning label).toList =
      (beginning.toList ++ front) ++ '\n' :: (back ++ ['\n']) := by
    rw [toList_line, hsplit]
    simp
  have hfront : splitLines ((beginning.toList ++ front) ++ ['\n']) ≠ [] := splitLines_ne_nil (by simp)
  have hback : splitLines (back ++ ['\n']) ≠ [] := splitLines_ne_nil (by simp)
  intro hone
  have hlength := congrArg List.length hone
  rw [hline, splitLines_append, List.length_append, List.length_singleton] at hlength
  have := List.length_pos_iff.2 hfront
  have := List.length_pos_iff.2 hback
  omega

/-- A stamp that breaks is never the only one of a text. -/
theorem isStamped_of_breaks (hlabel : Breaks label) (s : List Char) :
    isStamped beginning.toList (line beginning label).toList s = false := by
  obtain ⟨before, after, hsplit, -, c, hc, hspace⟩ := hlabel
  have hne : (c == '\n') = false := by
    rw [beq_eq_false_iff_ne]
    rintro rfl
    cases hspace
  have hafter : ∃ d ∈ after ++ ['\n'], (d == '\n') = false := ⟨c, by simp [hc], hne⟩
  have hline : (line beginning label).toList =
      (beginning.toList ++ before ++ ['\n']) ++ (after ++ ['\n']) := by
    rw [toList_line, hsplit]
    simp
  have hbare : '\n' ∈ dropEndWhile (· == '\n') (line beginning label).toList := by
    show '\n' ∈ (line beginning label).toList.rdropWhile (· == '\n')
    rw [hline, rdropWhile_append_of_exists hafter]
    simp
  rw [isStamped, beq_eq_false_iff_ne]
  intro hstamps
  have hmem : dropEndWhile (· == '\n') (line beginning label).toList ∈ stamps beginning.toList s := by
    rw [hstamps]
    simp
  exact notMem_of_mem_lines (List.mem_filter.1 hmem).1 hbare

/-! ## Trees -/

/-- A second stamp changes nothing if all lines of the stamp begin like one. -/
theorem restamp_restamp (hlines : unstamped beginning.toList (line beginning label).toList = [])
    (target : Path) (tree : Tree) :
    restamp target beginning (line beginning label)
        (restamp target beginning (line beginning label) tree) =
      restamp target beginning (line beginning label) tree := by
  have happlies := applies tree target beginning (line beginning label)
  rcases hresult : apply tree target beginning (line beginning label) with ⟨result, left⟩
  rw [hresult] at happlies
  have hleft : restamp target beginning (line beginning label) tree = left := by
    rw [restamp, hresult]
  rw [hleft]
  cases happlies with
  | failed | missing | present | same => exact hleft
  | @written text left hread hstale hupdate hswapped =>
      have hsame : fresh beginning (line beginning label) (fresh beginning (line beginning label) text) =
          fresh beginning (line beginning label) text := by
        have htext := toList_fresh_iterate beginning label text
        apply String.toList_injective
        rw [hlines] at htext
        simpa using (htext 1).trans (htext 0).symm
      rw [restamp, apply_of_read hswapped.read, hsame]
      split
      · rfl
      · rw [Tree.update_of_holds ⟨_, hswapped.read, rfl⟩]

/-- Stamping any number of times is stamping once if all lines of the stamp begin like one. -/
theorem restamp_iterate (hlines : unstamped beginning.toList (line beginning label).toList = [])
    (target : Path) (tree : Tree) (n : Nat) :
    (restamp target beginning (line beginning label))^[n + 1] tree =
      restamp target beginning (line beginning label) tree := by
  rw [Function.iterate_succ_apply]
  exact Function.iterate_fixed (restamp_restamp hlines target tree) n

/-- A file that was stamped with a label that breaks has the fresh text, and is stamped again. -/
theorem inserted_again (hlabel : Breaks label) {tree left : Tree} {target : Path} {text : String}
    (hread : tree.read target = .ok text.toUTF8)
    (happly : apply tree target beginning (line beginning label) = (.ok .inserted, left))
    (hdigest : Digest.ofContent text.toUTF8 ≠
      Digest.ofContent (fresh beginning (line beginning label) text).toUTF8) :
    left.read target = .ok (fresh beginning (line beginning label) text).toUTF8 ∧
      ∃ left', apply left target beginning (line beginning label) = (.ok .inserted, left') := by
  have happlies := applies tree target beginning (line beginning label)
  rw [happly] at happlies
  cases happlies with
  | same hfound hstale hsame =>
      obtain rfl := String.toByteArray_inj.1 (Except.ok.inj (hread.symm.trans hfound))
      exact absurd hsame hdigest
  | written hfound hstale hupdate hswapped =>
      obtain rfl := String.toByteArray_inj.1 (Except.ok.inj (hread.symm.trans hfound))
      refine ⟨hswapped.read, ?_⟩
      generalize fresh beginning (line beginning label) text = new at hupdate hswapped
      have hagain := Tree.update_again hupdate (fresh beginning (line beginning label) new)
      unfold apply
      rw [target?_eq_some_iff.2 hswapped.read]
      simp only [isStamped_of_breaks hlabel, Bool.false_eq_true, if_false]
      rw [fresh] at hagain
      rcases hagain with ⟨-, hunchanged⟩ | ⟨left', hwritten, -⟩
      · exact ⟨_, by rw [hunchanged]⟩
      · exact ⟨_, by rw [hwritten]⟩

/-- Every stamp with a label that breaks shows in the file. -/
theorem read_restamp_iterate (hlabel : Breaks label) {target : Path} {tree left : Tree}
    {text : String} {n : Nat} (hread : tree.read target = .ok text.toUTF8)
    (happly : apply tree target beginning (line beginning label) = (.ok .inserted, left))
    (hdigests : ∀ k ≤ n, Digest.ofContent ((fresh beginning (line beginning label))^[k] text).toUTF8 ≠
      Digest.ofContent ((fresh beginning (line beginning label))^[k + 1] text).toUTF8) :
    ((restamp target beginning (line beginning label))^[n + 1] tree).read target =
      .ok ((fresh beginning (line beginning label))^[n + 1] text).toUTF8 := by
  induction n generalizing tree left text with
  | zero =>
      obtain ⟨hleft, -⟩ := inserted_again hlabel hread happly (hdigests 0 (Nat.le_refl 0))
      show (restamp target beginning (line beginning label) tree).read target = _
      rw [restamp, happly]
      exact hleft
  | succ n ih =>
      obtain ⟨hleft, left', happly'⟩ := inserted_again hlabel hread happly (hdigests 0 (Nat.zero_le _))
      rw [Function.iterate_succ_apply, Function.iterate_succ_apply _ (n + 1) text]
      have htree : restamp target beginning (line beginning label) tree = left := by
        rw [restamp, happly]
      rw [htree]
      exact ih hleft happly' fun k hk => hdigests (k + 1) (by omega)

/-! ## Labels -/

/-- Without line feeds in its beginning and its label a stamp is put once. -/
theorem single_of_notMem (hbeginning : '\n' ∉ beginning.toList) (hlabel : '\n' ∉ label.toList) :
    Single beginning label :=
  ⟨hlabel, splitLines_line_of_notMem hbeginning hlabel,
    restamp_iterate (unstamped_line_of_notMem hbeginning hlabel)⟩

/-- With a line feed between words of the label the stamp piles up. -/
theorem piling_of_breaks (beginning : String) (hlabel : Breaks label) : Piling beginning label := by
  have hmem : '\n' ∈ label.toList := by
    obtain ⟨before, after, hsplit, -⟩ := hlabel
    simp [hsplit]
  exact ⟨hmem, splitLines_line_of_mem hmem, toList_fresh_iterate beginning label,
    fun _ _ _ _ _ hread happly hdigests => read_restamp_iterate hlabel hread happly hdigests⟩

/-- A checkout always has a label, and its stamp is a single line unless the text that the program
prints for it breaks; then the stamp piles up. -/
theorem version_stamps (program : Program) (root : Path) (tree : Tree) {unknown beginning : String}
    (hunknown : unknown ≠ "") (hline : '\n' ∉ unknown.toList) (hbeginning : '\n' ∉ beginning.toList) :
    (program.client.version root unknown tree).label ≠ "" ∧
      ((¬ ∃ text, program.Answers root tree text ∧ Breaks text) →
        Single beginning (program.client.version root unknown tree).label) ∧
      ((∃ text, program.Answers root tree text ∧ Breaks text) →
        Piling beginning (program.client.version root unknown tree).label) := by
  obtain ⟨hne, hfeed⟩ := program.lineFeed_mem_label_iff root tree hunknown hline
  refine ⟨hne, fun hsingle => single_of_notMem hbeginning (hfeed.not.2 hsingle), ?_⟩
  rintro ⟨text, hanswers, hbreaks⟩
  rcases program.version_label root unknown tree with ⟨other, hother, hlabel⟩ | ⟨hnone, -⟩
  · obtain rfl := hanswers.unique hother
    rw [hlabel]
    exact piling_of_breaks beginning (breaks_trim_of_mem (lineFeed_mem_trim_iff.2 hbreaks))
  · exact absurd hanswers (hnone text)

/-- A program that prints a text when it is asked for the label. -/
def printing (text : String) : Program :=
  Program.scripted "git" [("describe", ⟨text.toUTF8, .empty, true⟩)]

/-- The label is taken from what the program prints, if that is more than white space. -/
theorem answers_printing {text : String} (hword : ¬ Blank (decodeLossy text.toUTF8)) :
    (printing text).Answers ⟨"."⟩ stampedTree (decodeLossy text.toUTF8) := by
  have hplace : stampedTree.locate ⟨"."⟩ = .ok [] := by decide +kernel
  have hnames : ¬ (Program.holdsNul "git" || Program.holdsNul ".") = true := by decide +kernel
  have hdirectory : (stampedTree.at? []).any Node.isDirectory = true := by decide +kernel
  have hruns : (printing text).obstacle? ⟨"."⟩ stampedTree = none := by
    unfold Program.obstacle?
    rw [hplace]
    simp only [printing, Program.scripted, hnames, hdirectory]
    rfl
  exact .label ⟨hruns, _, rfl, rfl, rfl⟩ hword

/-- The labels of a program that prints one line, and of one that prints two. -/
theorem version_stamps_sample :
    "unknown" ≠ "" ∧ '\n' ∉ "unknown".toList ∧ '\n' ∉ "// Synced from hymo ".toList ∧
      ((printing "v1\n").client.version ⟨"."⟩ "unknown" stampedTree).label = "v1" ∧
      Single "// Synced from hymo " "v1" ∧
      ((printing "v1\nby hand\n").client.version ⟨"."⟩ "unknown" stampedTree).label =
        "v1\nby hand" ∧
      Piling "// Synced from hymo " "v1\nby hand" := by
  have hunknown : "unknown" ≠ "" := by decide
  have hline : '\n' ∉ "unknown".toList := by decide
  have hbeginning : '\n' ∉ "// Synced from hymo ".toList := by decide
  have hlabel : ((printing "v1\n").client.version ⟨"."⟩ "unknown" stampedTree).label = "v1" := by
    decide +kernel
  have hlabel' : ((printing "v1\nby hand\n").client.version ⟨"."⟩ "unknown" stampedTree).label =
      "v1\nby hand" := by decide +kernel
  obtain ⟨-, hsingle, -⟩ :=
    version_stamps (printing "v1\n") ⟨"."⟩ stampedTree hunknown hline hbeginning
  obtain ⟨-, -, hpiling⟩ :=
    version_stamps (printing "v1\nby hand\n") ⟨"."⟩ stampedTree hunknown hline hbeginning
  rw [hlabel] at hsingle
  rw [hlabel'] at hpiling
  refine ⟨hunknown, hline, hbeginning, hlabel, hsingle ?_, hlabel', hpiling ?_⟩
  · rintro ⟨text, hanswers, hbreaks⟩
    have hword : ¬ Blank (decodeLossy "v1\n".toUTF8) := by
      rw [← trim_eq_empty_iff]
      decide +kernel
    obtain rfl := (answers_printing hword).unique hanswers
    rw [← lineFeed_mem_trim_iff] at hbreaks
    revert hbreaks
    decide +kernel
  · have hbreaks : Breaks (decodeLossy "v1\nby hand\n".toUTF8) := by
      rw [← lineFeed_mem_trim_iff]
      decide +kernel
    refine ⟨_, answers_printing ?_, hbreaks⟩
    rw [← trim_eq_empty_iff]
    decide +kernel

end Stamp

end Vendoring
