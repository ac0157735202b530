import Vendoring.Proofs.Rule.Substitutions
import Vendoring.Proofs.Stamp.Lines

/-!
# Rewriting line by line

A pass goes through two parts of a text on its own if no occurrence of what it replaces begins in
the first one and runs into the second (`replaceAll_append`). A text without line feeds has no
occurrence across one, so literal rules for such texts keep lines apart, whatever they insert
(`substituteAll_append_feed`). A source other than the entry point is therefore rewritten line by
line; if no line feed is inserted, then it keeps its lines, and each becomes what it would become
alone (`transform_lines`).
-/

namespace Vendoring

namespace Text

/-- The lines of a text with their line feeds and, in the last place, what stands behind them. -/
def lineParts : List Char → List (List Char)
  | [] => [[]]
  | c :: cs =>
    if c = '\n' then ['\n'] :: lineParts cs
    else match lineParts cs with
      | [] => [[c]]
      | part :: parts => (c :: part) :: parts

/-- A text without line feeds is one part. -/
theorem lineParts_of_notMem {s : List Char} (h : '\n' ∉ s) : lineParts s = [s] := by
  induction s with
  | nil => rfl
  | cons c s ih =>
      rw [List.mem_cons, not_or] at h
      rw [lineParts, if_neg (Ne.symm h.1), ih h.2]

/-- A line is a part, with its line feed, in front of the parts behind it. -/
theorem lineParts_line {body : List Char} (h : '\n' ∉ body) (rest : List Char) :
    lineParts (body ++ '\n' :: rest) = (body ++ ['\n']) :: lineParts rest := by
  induction body with
  | nil => simp [lineParts]
  | cons c body ih =>
      rw [List.mem_cons, not_or] at h
      rw [List.cons_append, lineParts, if_neg (Ne.symm h.1), ih h.2]
      rfl

/-- There is one line for each line feed and what stands behind the last one. -/
theorem length_lineParts (s : List Char) : (lineParts s).length = s.count '\n' + 1 := by
  induction s using lineFeed_induction with
  | last s hs =>
      rw [lineParts_of_notMem hs, List.count_eq_zero.2 hs]
      rfl
  | line body rest hbody ih =>
      rw [lineParts_line hbody, List.length_cons, ih, List.count_append, List.count_eq_zero.2 hbody,
        List.count_cons_self, Nat.zero_add]

end Text

open Text

namespace Rule

/-! ## Passes over two parts -/

/-- A character that is neither in the text nor inserted is not in what a pass makes of it. -/
theorem Substituted.notMem {R : Replacement} {n : Nat} {previous : Option Char} {s t : List Char}
    {c : Char} (h : Substituted R n previous s t)
    (hinserted : ∀ previous m behind r, R previous m behind r → c ∉ r) (hs : c ∉ s) : c ∉ t := by
  induction h with
  | nil => exact hs
  | keep _ _ ih =>
      rw [List.mem_cons, not_or] at hs ⊢
      exact ⟨hs.1, ih hs.2⟩
  | change hm _ ih =>
      rw [List.mem_append, not_or] at hs ⊢
      exact ⟨hinserted _ _ _ _ hm, ih hs.2⟩

section

variable {pattern replacement s t t' : List Char} {previous : Option Char}

/-- What stands in front of a text does not matter to the pass over it. -/
theorem substituted_replaceAll (hne : pattern ≠ []) (replacement s : List Char)
    (previous : Option Char) :
    ∃ n, Substituted (.ofText pattern replacement) n previous s
      (replaceAll pattern replacement s) := by
  obtain ⟨n, hpass⟩ := (finds_literal hne replacement).substituted previous s
  have hsame : substitute (Text.literal pattern replacement) previous s =
      substitute (Text.literal pattern replacement) none s := substitute_congr rfl
  rw [hsame] at hpass
  rw [replaceAll, if_neg hne]
  exact ⟨n, hpass⟩

/-- Behind a pass over the first part comes one over the second, if nothing that begins in the first
part runs into the second. -/
theorem Substituted.append {n : Nat} {s' : List Char}
    (h : Substituted (.ofText pattern replacement) n previous s s')
    (hapart : ∀ w, w <:+ s → w ≠ [] → pattern <+: w ++ t → pattern <+: w)
    (hrest : ∀ previous, ∃ k, Substituted (.ofText pattern replacement) k previous t t') :
    ∃ k, Substituted (.ofText pattern replacement) k previous (s ++ t) (s' ++ t') := by
  induction h with
  | nil => exact hrest _
  | @keep n previous c s s' hnone h ih =>
      obtain ⟨k, ih⟩ := ih fun w hw => hapart w (hw.trans (List.suffix_cons c s))
      refine ⟨k, .keep ?_ ih⟩
      rintro m behind r ⟨rfl, rfl⟩ heq
      obtain ⟨rest, hrest⟩ := hapart (c :: s) List.suffix_rfl (by simp) ⟨behind, heq.symm⟩
      exact hnone m rest r ⟨rfl, rfl⟩ hrest.symm
  | @change n previous m r s s' hm h ih =>
      obtain ⟨k, ih⟩ := ih fun w hw => hapart w (hw.trans (List.suffix_append m s))
      rw [List.append_assoc, List.append_assoc]
      exact ⟨k + 1, .change hm ih⟩

/-- A text is replaced in two parts on its own, if nothing that begins in the first part runs into
the second. -/
theorem replaceAll_append (hne : pattern ≠ [])
    (hapart : ∀ w, w <:+ s → w ≠ [] → pattern <+: w ++ t → pattern <+: w)
    (hrest : ∀ previous, ∃ k, Substituted (.ofText pattern replacement) k previous t t') :
    replaceAll pattern replacement (s ++ t) = replaceAll pattern replacement s ++ t' := by
  obtain ⟨n, hpass⟩ := substituted_replaceAll hne replacement s none
  exact (replaceAll_eq_iff hne).2 (hpass.append hapart hrest)

/-- Nothing is replaced in a text without characters. -/
theorem replaceAll_nil (pattern replacement : List Char) : replaceAll pattern replacement [] = [] := by
  unfold replaceAll
  split
  · rfl
  · exact substitute_nil

end

/-! ## Line ends -/

/-- Line ends are unified on both sides of a line end on their own: of a line feed behind anything
but a carriage return, and of both characters. -/
theorem unifyLineEnds_append (s t : List Char) :
    (s.getLast? ≠ some '\r' →
        unifyLineEnds (s ++ '\n' :: t) = unifyLineEnds s ++ '\n' :: unifyLineEnds t) ∧
      unifyLineEnds (s ++ '\r' :: '\n' :: t) = unifyLineEnds s ++ '\n' :: unifyLineEnds t := by
  have hne : ['\r', '\n'] ≠ [] := by simp
  -- what begins in the first part ends there, unless it begins at its last character
  have hparts : ∀ w rest : List Char, ['\r', '\n'] <+: w ++ rest → w ≠ [] →
      (∀ e, w = [e] → ¬ ['\r', '\n'] <+: e :: rest) → ['\r', '\n'] <+: w := by
    intro w rest hopens hw hone
    match w with
    | [e] => exact absurd hopens (hone e rfl)
    | e :: f :: w => simpa using hopens
  constructor
  · intro hend
    refine replaceAll_append hne (fun w hw hwne hopens => hparts w _ hopens hwne ?_) ?_
    · rintro e rfl hlone
      obtain rfl : '\r' = e := by simpa using hlone
      obtain ⟨front, rfl⟩ := hw
      simp at hend
    · intro previous
      obtain ⟨k, hpass⟩ := substituted_replaceAll hne ['\n'] t (some '\n')
      refine ⟨k, .keep ?_ hpass⟩
      rintro m behind r ⟨rfl, rfl⟩ heq
      simp at heq
  · refine replaceAll_append hne (fun w hw hwne hopens => hparts w _ hopens hwne ?_) ?_
    · rintro e rfl hlone
      simp at hlone
    · intro previous
      obtain ⟨k, hpass⟩ := substituted_replaceAll hne ['\n'] t (some '\n')
      have hfirst : (Replacement.ofText ['\r', '\n'] ['\n']) previous ['\r', '\n'] t ['\n'] := ⟨rfl, rfl⟩
      exact ⟨k + 1, .change hfirst hpass⟩

/-! ## Literal rules -/

/-- A text without line feeds is replaced on both sides of a line feed on its own. -/
theorem replaceAll_append_feed {pattern : List Char} (hpattern : '\n' ∉ pattern)
    (replacement s t : List Char) :
    replaceAll pattern replacement (s ++ '\n' :: t) =
      replaceAll pattern replacement s ++ '\n' :: replaceAll pattern replacement t := by
  by_cases hne : pattern = []
  · simp only [replaceAll, if_pos hne]
  refine replaceAll_append hne (fun w _ _ hopens => ?_) ?_
  · rcases List.prefix_or_prefix_of_prefix hopens (List.prefix_append w ('\n' :: t)) with
      hwithin | ⟨more, rfl⟩
    · exact hwithin
    · rw [List.prefix_append_right_inj] at hopens
      cases more with
      | nil => simp
      | cons c more =>
          obtain ⟨rfl, -⟩ := List.cons_prefix_cons.1 hopens
          exact absurd (by simp) hpattern
  · intro previous
    obtain ⟨k, hpass⟩ := substituted_replaceAll hne replacement t (some '\n')
    refine ⟨k, .keep ?_ hpass⟩
    rintro m behind r ⟨rfl, rfl⟩ heq
    obtain ⟨c, m, rfl⟩ := List.exists_cons_of_ne_nil hne
    obtain ⟨rfl, -⟩ := List.cons.inj heq
    exact hpattern (by simp)

section

variable {substitutions : List Substitution}

/-- The first substitution is applied first. -/
theorem substituteAll_cons (x : Substitution) (s : List Char) :
    substituteAll (x :: substitutions) s =
      substituteAll substitutions (replaceAll x.pattern.toList x.replacement.toList s) :=
  rfl

/-- Literal rules for texts without line feeds rewrite both sides of a line feed on their own, even
if an earlier one inserts line feeds. -/
theorem substituteAll_append_feed (hpatterns : ∀ x ∈ substitutions, '\n' ∉ x.pattern.toList)
    (s t : List Char) :
    substituteAll substitutions (s ++ '\n' :: t) =
      substituteAll substitutions s ++ '\n' :: substituteAll substitutions t := by
  induction substitutions generalizing s t with
  | nil => rfl
  | cons x substitutions ih =>
      rw [substituteAll_cons, replaceAll_append_feed (hpatterns x (by simp)),
        ih fun y hy => hpatterns y (List.mem_cons_of_mem x hy)]
      rfl

/-- Substitutions leave a text without characters as it is. -/
theorem substituteAll_nil (substitutions : List Substitution) : substituteAll substitutions [] = [] := by
  induction substitutions with
  | nil => rfl
  | cons x substitutions ih => rw [substituteAll_cons, replaceAll_nil, ih]

/-- A character that is in no replacement is not brought in by substitutions. -/
theorem notMem_substituteAll {c : Char}
    (hreplacements : ∀ x ∈ substitutions, c ∉ x.replacement.toList) {s : List Char} (hs : c ∉ s) :
    c ∉ substituteAll substitutions s := by
  induction substitutions generalizing s with
  | nil => exact hs
  | cons x substitutions ih =>
      rw [substituteAll_cons]
      refine ih (fun y hy => hreplacements y (List.mem_cons_of_mem x hy)) ?_
      by_cases hne : x.pattern.toList = []
      · rwa [replaceAll, if_pos hne]
      · obtain ⟨n, hpass⟩ := substituted_replaceAll hne x.replacement.toList s none
        exact hpass.notMem (fun _ _ _ r hr => hr.2 ▸ hreplacements x (by simp)) hs

end

end Rule

open Rule

namespace Transformer

variable {t : Transformer} {source : Path}

/-- Other sources than the entry point get the literal rules behind unified line ends. -/
theorem edit_of_not_entryPoint (hentry : t.isEntryPoint source = false) (s : List Char) :
    t.edit source s = substituteAll t.literal (unifyLineEnds s) := by
  rw [edit, rulesFor, hentry, if_neg Bool.false_ne_true, List.append_nil]
  rfl

/-- Transforming a text edits its characters. -/
theorem toList_transform (t : Transformer) (text : String) (source : Path) :
    (t.transform text source).toList = t.edit source text.toList := by
  rw [transform, String.toList_ofList]

/-- Both sides of a line end are rewritten on their own. -/
theorem edit_append (hentry : t.isEntryPoint source = false)
    (hpatterns : ∀ x ∈ t.literal, '\n' ∉ x.pattern.toList) (x y : List Char) :
    (x.getLast? ≠ some '\r' →
        t.edit source (x ++ '\n' :: y) = t.edit source x ++ '\n' :: t.edit source y) ∧
      t.edit source (x ++ '\r' :: '\n' :: y) = t.edit source x ++ '\n' :: t.edit source y := by
  simp only [edit_of_not_entryPoint hentry]
  constructor
  · intro hend
    rw [(unifyLineEnds_append x y).1 hend, substituteAll_append_feed hpatterns]
  · rw [(unifyLineEnds_append x y).2, substituteAll_append_feed hpatterns]

/-- A line is rewritten to a text of its own, and to a line if no line feed is inserted. -/
theorem exists_edit_line (hentry : t.isEntryPoint source = false)
    (hpatterns : ∀ x ∈ t.literal, '\n' ∉ x.pattern.toList) {body : List Char} (hbody : '\n' ∉ body) :
    ∃ bare, '\n' ∉ bare ∧ ∀ rest, t.edit source (body ++ '\n' :: rest) =
      t.edit source bare ++ '\n' :: t.edit source rest := by
  by_cases hend : body.getLast? = some '\r'
  · obtain ⟨bare, rfl⟩ := List.getLast?_eq_some_iff.1 hend
    rw [List.mem_append, not_or] at hbody
    refine ⟨bare, hbody.1, fun rest => ?_⟩
    rw [List.append_assoc]
    exact (edit_append hentry hpatterns bare rest).2
  · exact ⟨body, hbody, fun rest => (edit_append hentry hpatterns body rest).1 hend⟩

/-- A text without line feeds gets none, apart from the entry point, if the replacements have
none. -/
theorem notMem_edit (hentry : t.isEntryPoint source = false)
    (hreplacements : ∀ x ∈ t.literal, '\n' ∉ x.replacement.toList) {s : List Char} (hs : '\n' ∉ s) :
    '\n' ∉ t.edit source s := by
  rw [edit_of_not_entryPoint hentry, unifyLineEnds, replaceAll_of_absent]
  · exact notMem_substituteAll hreplacements hs
  · intro hends
    exact hs (hends.subset (by simp))

/-- A text without characters stays so, apart from the entry point. -/
theorem edit_nil (hentry : t.isEntryPoint source = false) : t.edit source [] = [] := by
  rw [edit_of_not_entryPoint hentry, unifyLineEnds, replaceAll_nil, substituteAll_nil]

/-- A text keeps its lines, each rewritten. -/
theorem lineParts_edit (hentry : t.isEntryPoint source = false)
    (hpatterns : ∀ x ∈ t.literal, '\n' ∉ x.pattern.toList)
    (hreplacements : ∀ x ∈ t.literal, '\n' ∉ x.replacement.toList) (s : List Char) :
    lineParts (t.edit source s) = (lineParts s).map (t.edit source) := by
  induction s using lineFeed_induction with
  | last s hs =>
      rw [lineParts_of_notMem hs, lineParts_of_notMem (notMem_edit hentry hreplacements hs)]
      rfl
  | line body rest hbody ih =>
      obtain ⟨bare, hbare, hedit⟩ := exists_edit_line hentry hpatterns hbody
      have hline := hedit []
      rw [edit_nil hentry] at hline
      rw [lineParts_line hbody, List.map_cons, ← ih, hedit rest, hline,
        lineParts_line (notMem_edit hentry hreplacements hbare)]

/-- A source other than the entry point, under literal rules for texts without line feeds, is
rewritten on both sides of a line end on their own, unless the line feed would meet a carriage
return. If no line feed is inserted, then as many are in the text as before, and each line, with its
end, and what stands behind the last one becomes what it would become alone. -/
theorem transform_lines (hentry : t.isEntryPoint source = false)
    (hpatterns : ∀ x ∈ t.literal, '\n' ∉ x.pattern.toList) :
    (∀ x y : String, x.toList.getLast? ≠ some '\r' →
      t.transform (x ++ "\n" ++ y) source = t.transform x source ++ "\n" ++ t.transform y source) ∧
    (∀ x y : String,
      t.transform (x ++ "\r\n" ++ y) source = t.transform x source ++ "\n" ++ t.transform y source) ∧
    ((∀ x ∈ t.literal, '\n' ∉ x.replacement.toList) → ∀ text : String,
      (t.transform text source).toList.count '\n' = text.toList.count '\n' ∧
      lineParts (t.transform text source).toList = (lineParts text.toList).map (t.edit source)) := by
  refine ⟨fun x y hend => ?_, fun x y => ?_, fun hreplacements text => ?_⟩
  · have hedit := (edit_append hentry hpatterns x.toList y.toList).1 hend
    rw [← String.toList_inj]
    simpa [toList_transform, String.toList_append] using hedit
  · have hedit := (edit_append hentry hpatterns x.toList y.toList).2
    rw [← String.toList_inj]
    simpa [toList_transform, String.toList_append] using hedit
  · have hparts := lineParts_edit hentry hpatterns hreplacements text.toList
    rw [toList_transform]
    refine ⟨?_, hparts⟩
    have hlength := congrArg List.length hparts
    rw [List.length_map, length_lineParts, length_lineParts] at hlength
    omega

/-- The default rules replace no line feeds and insert none. -/
theorem notMem_defaultSubstitutions :
    ∀ x ∈ Settings.defaultSubstitutions, '\n' ∉ x.pattern.toList ∧ '\n' ∉ x.replacement.toList := by
  decide +kernel

/-- A header of two lines and the start of a third one, under the default rules: the include is
rewritten as if it were alone, and the two kinds of line ends become one. -/
theorem transform_lines_sample :
    ∃ t : Transformer, t.literal = Settings.defaultSubstitutions ∧
      t.isEntryPoint ⟨"core/state.hpp"⟩ = false ∧
      t.transform ("#pragma once\r\n#include \"defs.hpp\"" ++ "\n" ++ "int") ⟨"core/state.hpp"⟩ =
        t.transform "#pragma once\r\n#include \"defs.hpp\"" ⟨"core/state.hpp"⟩ ++ "\n" ++
          t.transform "int" ⟨"core/state.hpp"⟩ ∧
      lineParts (t.transform "#pragma once\r\n#include \"defs.hpp\"\nint" ⟨"core/state.hpp"⟩).toList =
        ["#pragma once\n".toList, "#include \"hymo_defs.hpp\"\n".toList, "int".toList] := by
  have hentry : isEntryPoint ⟨Settings.defaultSubstitutions, ⟨"main.cpp"⟩, []⟩ ⟨"core/state.hpp"⟩ =
      false := by
    decide
  obtain ⟨hfeed, -, hlines⟩ := transform_lines hentry fun x hx => (notMem_defaultSubstitutions x hx).1
  refine ⟨_, rfl, hentry, hfeed _ "int" (by decide), ?_⟩
  obtain ⟨-, hparts⟩ := hlines (fun x hx => (notMem_defaultSubstitutions x hx).2)
    "#pragma once\r\n#include \"defs.hpp\"\nint"
  rw [hparts]
  decide +kernel

end Transformer

end Vendoring
