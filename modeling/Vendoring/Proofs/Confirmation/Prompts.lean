import Vendoring.Confirmation
import Vendoring.Proofs.Stamp.Apply
import Vendoring.Proofs.VersionControl.Label

/-!
# Prompts on one input

The lines of an input are told by its line feeds alone (`Lines`). A prompt takes the first one,
whatever its bytes are (`Lines.takeLine_eq`), and goes on just if it is the letter `y` in either
case with white space around it (`saysYes_iff`). So prompts that follow each other on one input take
its lines in order, each answer depends on its own line only, and behind the last line all prompts
decline (`prompts_linewise`).
-/

namespace Vendoring

/-! ## Trimming to one character -/

/-- A text is trimmed to one character outside of the class just if all others are in it. -/
theorem Text.trimBoth_eq_singleton_iff {p : Char → Bool} {c : Char} (hc : p c = false) {s : List Char} :
    trimBoth p s = [c] ↔ ∃ before after, s = before ++ c :: after ∧
      ∀ d ∈ before ++ after, p d = true := by
  rw [trimBoth_eq]
  constructor
  · intro h
    have hdropped : [c] ++ (s.dropWhile p).rtakeWhile p = s.dropWhile p := by
      rw [← h, List.rdropWhile_append_rtakeWhile]
    refine ⟨s.takeWhile p, (s.dropWhile p).rtakeWhile p, ?_, ?_⟩
    · calc s = s.takeWhile p ++ s.dropWhile p := List.takeWhile_append_dropWhile.symm
        _ = s.takeWhile p ++ c :: (s.dropWhile p).rtakeWhile p := congrArg _ hdropped.symm
    · intro d hd
      rcases List.mem_append.1 hd with hd | hd
      · exact List.mem_takeWhile_imp hd
      · exact List.mem_rtakeWhile_imp hd
  · rintro ⟨before, after, rfl, hspace⟩
    have hbefore : ∀ d ∈ before, p d = true := fun d hd => hspace d (List.mem_append_left _ hd)
    have hafter : ∀ d ∈ after.reverse, p d = true := fun d hd =>
      hspace d (List.mem_append_right _ (List.mem_reverse.1 hd))
    rw [List.dropWhile_append_of_pos hbefore, List.dropWhile_cons_of_neg (by simp [hc]),
      List.rdropWhile, List.reverse_cons, List.dropWhile_append_of_pos hafter,
      List.dropWhile_cons_of_neg (by simp [hc]), List.reverse_singleton]

namespace Confirmation

/-! ## The lines of an input -/

/-- The lines of an input in order. A line feed ends each of them but perhaps the last one, which is
not empty, and stands nowhere else. -/
inductive Lines : List UInt8 → List (List UInt8) → Prop
  | nil : Lines [] []
  | last {line : List UInt8} (hne : line ≠ []) (hfeed : 10 ∉ line) : Lines line [line]
  | feed {body rest : List UInt8} {lines : List (List UInt8)} (hfeed : 10 ∉ body)
      (h : Lines rest lines) : Lines (body ++ 10 :: rest) ((body ++ [10]) :: lines)

/-- The input that a number of prompts leave behind. -/
def leftBy : Nat → List UInt8 → List UInt8
  | 0, input => input
  | n + 1, input => (prompt (leftBy n input)).2

/-- A line is taken up to its line feed. -/
theorem takeLine_line {body : List UInt8} (h : 10 ∉ body) (rest : List UInt8) :
    takeLine (body ++ 10 :: rest) = (body ++ [10], rest) := by
  induction body with
  | nil => simp [takeLine]
  | cons b body ih =>
      rw [List.mem_cons, not_or] at h
      rw [List.cons_append, takeLine, if_neg (Ne.symm h.1), ih h.2]
      rfl

/-- An input without a line feed is taken as one line. -/
theorem takeLine_of_notMem {line : List UInt8} (h : 10 ∉ line) : takeLine line = (line, []) := by
  induction line with
  | nil => rfl
  | cons b line ih =>
      rw [List.mem_cons, not_or] at h
      rw [takeLine, if_neg (Ne.symm h.1), ih h.2]

/-- Every input has lines. -/
theorem exists_lines (input : List UInt8) : ∃ lines, Lines input lines := by
  refine Text.separator_induction 10 input ?_ ?_
  · intro line hfeed
    by_cases hnil : line = []
    · exact ⟨[], hnil ▸ .nil⟩
    · exact ⟨[line], .last hnil hfeed⟩
  · rintro body rest hbody ⟨lines, hlines⟩
    exact ⟨_, .feed hbody hlines⟩

namespace Lines

variable {input : List UInt8} {lines other : List (List UInt8)}

/-- The lines of an input make it up. -/
theorem flatten_eq (h : Lines input lines) : lines.flatten = input := by
  induction h with
  | nil => rfl
  | last hne hfeed => simp
  | feed hfeed h ih => simp [ih]

/-- An input has only one list of lines. -/
theorem unique (h : Lines input lines) (h' : Lines input other) : other = lines := by
  induction h generalizing other with
  | nil =>
      generalize hs : ([] : List UInt8) = s at h'
      cases h' with
      | nil => rfl
      | last hne => exact absurd hs.symm hne
      | feed => simp at hs
  | @last line hne hfeed =>
      generalize hs : line = s at h'
      cases h' with
      | nil => exact absurd hs hne
      | last => rfl
      | feed => exact absurd (by simp [hs]) hfeed
  | @feed body rest lines hfeed h ih =>
      generalize hs : body ++ 10 :: rest = s at h'
      cases h' with
      | nil => simp at hs
      | last _ hfeed' => exact absurd (by simp [← hs]) hfeed'
      | @feed body' rest' lines' hfeed' h' =>
          have hfirst := congrArg takeLine hs
          rw [takeLine_line hfeed, takeLine_line hfeed'] at hfirst
          obtain ⟨hbody, rfl⟩ := Prod.mk.inj hfirst
          rw [ih h', hbody]

/-- The first line of an input, which is empty at the end, is taken and the others are left. -/
theorem takeLine_eq (h : Lines input lines) :
    takeLine input = (lines.getD 0 [], (lines.drop 1).flatten) ∧
      Lines (lines.drop 1).flatten (lines.drop 1) := by
  cases h with
  | nil => exact ⟨rfl, .nil⟩
  | last hne hfeed => exact ⟨takeLine_of_notMem hfeed, .nil⟩
  | @feed body rest lines hfeed h =>
      rw [takeLine_line hfeed, List.drop_succ_cons, List.drop_zero, h.flatten_eq]
      exact ⟨rfl, h⟩

/-- Behind a number of prompts as many lines are gone. -/
theorem leftBy_eq (h : Lines input lines) (n : Nat) :
    leftBy n input = (lines.drop n).flatten ∧ Lines (leftBy n input) (lines.drop n) := by
  induction n with
  | zero =>
      rw [leftBy, List.drop_zero, h.flatten_eq]
      exact ⟨rfl, h⟩
  | succ n ih =>
      obtain ⟨htake, hrest⟩ := ih.2.takeLine_eq
      have hleft : leftBy (n + 1) input = ((lines.drop n).drop 1).flatten := congrArg Prod.snd htake
      rw [hleft, ← List.drop_drop]
      exact ⟨rfl, hrest⟩

/-- A prompt takes the line that is due, and nothing else. -/
theorem takeLine_leftBy (h : Lines input lines) (n : Nat) :
    takeLine (leftBy n input) = (lines.getD n [], leftBy (n + 1) input) ∧
      leftBy n input = lines.getD n [] ++ leftBy (n + 1) input := by
  have hfirst : (takeLine (leftBy n input)).1 = lines.getD n [] := by
    rw [(h.leftBy_eq n).2.takeLine_eq.1]
    simp
  constructor
  · exact Prod.ext hfirst rfl
  · rw [← hfirst]
    exact (takeLine_append _).symm

end Lines

/-! ## Answers -/

/-- A line that says yes: the bytes of a text that is `y` or `Y` with nothing but white space around
it. -/
def Affirms (line : List UInt8) : Prop :=
  ∃ (before after : List Char) (c : Char), (c = 'y' ∨ c = 'Y') ∧
    (∀ d ∈ before ++ after, Text.isSpace d = true) ∧
    line = (String.ofList (before ++ c :: after)).toUTF8.data.toList

/-- A text is trimmed to one character exactly if there is but white space around it. -/
theorem trim_eq_iff {c : Char} (hc : Text.isSpace c = false) {text : String} :
    Text.trim text = String.ofList [c] ↔ ∃ before after, text = String.ofList (before ++ c :: after) ∧
      ∀ d ∈ before ++ after, Text.isSpace d = true := by
  have htext : ∀ s : List Char, text = String.ofList s ↔ text.toList = s := by
    intro s
    rw [← String.toList_inj, String.toList_ofList]
  rw [Text.trim, ← String.toList_inj, String.toList_ofList, String.toList_ofList,
    Text.trimBoth_eq_singleton_iff hc]
  simp only [htext]

/-- The answer is yes exactly if the line affirms. -/
theorem saysYes_iff {line : List UInt8} : saysYes line = true ↔ Affirms line := by
  have hbytes : ∀ text : String, Text.decode ⟨line.toArray⟩ = .ok text ↔
      line = text.toUTF8.data.toList := by
    intro text
    rw [Text.decode_eq_ok_iff]
    constructor
    · intro h
      rw [← h]
    · rintro rfl
      rfl
  have hanswer : saysYes line = true ↔ ∃ text, Text.decode ⟨line.toArray⟩ = .ok text ∧
      (Text.trim text = "y" ∨ Text.trim text = "Y") := by
    unfold saysYes
    cases Text.decode ⟨line.toArray⟩ with
    | ok text => simp
    | error fault => simp
  have hlower : Text.isSpace 'y' = false := by decide
  have hupper : Text.isSpace 'Y' = false := by decide
  rw [hanswer]
  constructor
  · rintro ⟨text, hdecoded, htrimmed | htrimmed⟩
    · obtain ⟨before, after, rfl, hspace⟩ := (trim_eq_iff hlower).1 htrimmed
      exact ⟨before, after, 'y', Or.inl rfl, hspace, (hbytes _).1 hdecoded⟩
    · obtain ⟨before, after, rfl, hspace⟩ := (trim_eq_iff hupper).1 htrimmed
      exact ⟨before, after, 'Y', Or.inr rfl, hspace, (hbytes _).1 hdecoded⟩
  · rintro ⟨before, after, c, hc, hspace, hline⟩
    refine ⟨_, (hbytes _).2 hline, ?_⟩
    rcases hc with rfl | rfl
    · exact Or.inl ((trim_eq_iff hlower).2 ⟨before, after, rfl, hspace⟩)
    · exact Or.inr ((trim_eq_iff hupper).2 ⟨before, after, rfl, hspace⟩)

instance : DecidablePred Affirms := fun _ => decidable_of_iff _ saysYes_iff

/-- The answer tells whether the line affirms. -/
theorem saysYes_eq (line : List UInt8) : saysYes line = decide (Affirms line) := by
  rw [Bool.eq_iff_iff, saysYes_iff, decide_eq_true_iff]

/-- Bytes that are no text decline, and so do white space alone and no bytes at all. -/
theorem not_affirms :
    (∀ line, (∀ text : String, line ≠ text.toUTF8.data.toList) → ¬ Affirms line) ∧
      (∀ text, Text.Blank text → ¬ Affirms text.toUTF8.data.toList) ∧ ¬ Affirms [] := by
  have hblank : ∀ text, Text.Blank text → ¬ Affirms text.toUTF8.data.toList := by
    rintro text htext ⟨before, after, c, hc, -, hline⟩
    have hbytes : text.toUTF8 = (String.ofList (before ++ c :: after)).toUTF8 :=
      ByteArray.ext (Array.toList_inj.1 hline)
    obtain rfl : String.ofList (before ++ c :: after) = text :=
      Except.ok.inj ((Text.decode_eq_ok_iff.2 hbytes).symm.trans (Text.decode_eq_ok_iff.2 rfl))
    have hspace := htext c (by simp)
    rcases hc with rfl | rfl
    · exact absurd hspace (by decide)
    · exact absurd hspace (by decide)
  refine ⟨?_, hblank, hblank "" (by simp [Text.Blank])⟩
  rintro line hnone ⟨before, after, c, -, -, hline⟩
  exact hnone _ hline

/-! ## Prompts in a row -/

/-- One prompt less on what the first one leaves leaves the same. -/
theorem leftBy_prompt (n : Nat) (input : List UInt8) :
    leftBy n (prompt input).2 = leftBy (n + 1) input := by
  induction n with
  | zero => rfl
  | succ n ih => exact congrArg (fun left => (prompt left).2) ih

/-- Each prompt in a row reads what those before it leave. -/
theorem prompts_eq (n : Nat) (input : List UInt8) :
    prompts n input = (List.range n).map fun j => (prompt (leftBy j input)).1 := by
  induction n generalizing input with
  | zero => rfl
  | succ n ih =>
      rw [List.range_succ_eq_map, List.map_cons, List.map_map]
      refine congrArg ((prompt input).1 :: ·) ?_
      rw [ih]
      exact List.map_congr_left fun j _ => congrArg (fun left => (prompt left).1) (leftBy_prompt j input)

/-- Prompts that follow each other on one input take its lines in order, through their line feeds,
and nothing else. Each answer is yes exactly if the line is the text `y` or `Y` with white space
around it; so bytes that are no text, lines of white space and the end of the input decline, and
none of them matters to the next answer. -/
theorem prompts_linewise (input : List UInt8) :
    ∃ lines, Lines input lines ∧ (∀ other, Lines input other → other = lines) ∧
      (∀ n, prompts n input = (List.range n).map fun j => decide (Affirms (lines.getD j []))) ∧
      (∀ j, prompt (leftBy j input) = (decide (Affirms (lines.getD j [])), leftBy (j + 1) input) ∧
        leftBy j input = lines.getD j [] ++ leftBy (j + 1) input ∧
        leftBy j input = (lines.drop j).flatten) ∧
      (∀ line, (∀ text : String, line ≠ text.toUTF8.data.toList) → ¬ Affirms line) ∧
      (∀ text, Text.Blank text → ¬ Affirms text.toUTF8.data.toList) ∧ ¬ Affirms [] := by
  obtain ⟨lines, hlines⟩ := exists_lines input
  have hprompt : ∀ j, prompt (leftBy j input) =
      (decide (Affirms (lines.getD j [])), leftBy (j + 1) input) := by
    intro j
    rw [prompt, (hlines.takeLine_leftBy j).1, ← saysYes_eq]
  refine ⟨lines, hlines, fun other => hlines.unique, ?_, ?_, not_affirms⟩
  · intro n
    rw [prompts_eq]
    exact List.map_congr_left fun j _ => congrArg Prod.fst (hprompt j)
  · intro j
    exact ⟨hprompt j, (hlines.takeLine_leftBy j).2, (hlines.leftBy_eq j).1⟩

/-- A line that is no text, a yes behind it, and the end of the input. -/
example : prompts 3 ([0xff, 10] ++ " Y\r\n".toUTF8.data.toList) = [false, true, false] := by
  decide +kernel

end Confirmation

end Vendoring
