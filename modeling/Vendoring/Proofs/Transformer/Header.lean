import Vendoring.Proofs.Settings.Override
import Vendoring.Proofs.Transformer.LineEnds
import Vendoring.Proofs.Transformer.Lines
import Vendoring.Proofs.Transformer.Selection

/-!
# Which headers are comments

The header of the entry point is a template of comment lines with configured texts in it. What
stands behind a text begins with another character than a slash, so a text breaks a comment just if
it has a line feed without a comment sign behind it (`carriesComment_template`). Unifying the line
ends and cutting the end of the header change nothing about that. So the header has only comments in
front of its empty line exactly if no configured text breaks one, and then no line of it is program
text in the file that it is put in front of; but the texts are used as they are, and validation
refuses none of them (`header_comments`).
-/

namespace Vendoring

namespace Text

/-- What a line of comment begins with. -/
def commentSign : List Char :=
  ['/', '/']

/-- Behind every line feed of the first text, with the second one behind it, stands a comment
sign. -/
def CarriesComment (s behind : List Char) : Prop :=
  ∀ rest, '\n' :: rest <:+ s → commentSign <+: rest ++ behind

/-- All lines of a text are comments, except for one empty line at its end. -/
def CommentsOnly (s : List Char) : Prop :=
  ∃ comments, splitLines s = comments ++ [['\n']] ∧ ∀ line ∈ comments, commentSign <+: line

section

variable {c : Char} {s t behind : List Char}

/-- A text without characters carries a comment. -/
theorem carriesComment_nil (behind : List Char) : CarriesComment [] behind := by
  intro rest h
  simp at h

/-- One more character in front matters only if it is a line feed. -/
theorem carriesComment_cons : CarriesComment (c :: s) behind ↔
    (c = '\n' → commentSign <+: s ++ behind) ∧ CarriesComment s behind := by
  unfold CarriesComment
  constructor
  · intro h
    refine ⟨?_, fun rest hrest => h rest (hrest.trans (List.suffix_cons c s))⟩
    rintro rfl
    exact h s List.suffix_rfl
  · rintro ⟨hfirst, hothers⟩ rest hrest
    rcases List.suffix_cons_iff.1 hrest with heq | hrest
    · obtain ⟨rfl, rfl⟩ := List.cons.inj heq
      exact hfirst rfl
    · exact hothers rest hrest

/-- Whether a text carries a comment is told by its tails. -/
theorem all_tails_iff : (s.tails.all fun t =>
      decide (t.head? = some '\n' → commentSign <+: t.tail ++ behind)) ↔ CarriesComment s behind := by
  simp only [List.all_eq_true, List.mem_tails, decide_eq_true_eq]
  constructor
  · intro h rest hrest
    exact h ('\n' :: rest) hrest rfl
  · intro h t ht hfeed
    obtain ⟨rest, rfl⟩ := List.head?_eq_some_iff.1 hfeed
    exact h rest ht

instance : Decidable (CarriesComment s behind) :=
  decidable_of_iff _ all_tails_iff

/-- Two texts carry a comment exactly if the first one does in front of the second one, and the
second one does. -/
theorem carriesComment_append : CarriesComment (s ++ t) behind ↔
    CarriesComment s (t ++ behind) ∧ CarriesComment t behind := by
  induction s with
  | nil => simp [carriesComment_nil]
  | cons c s ih => simp only [List.cons_append, carriesComment_cons, ih, List.append_assoc, and_assoc]

/-- A text without line feeds carries a comment. -/
theorem carriesComment_of_notMem (h : '\n' ∉ s) (behind : List Char) : CarriesComment s behind := by
  intro rest hrest
  exact absurd (hrest.subset (by simp)) h

/-- What is behind a text does not complete a comment sign, unless it begins with a slash. -/
theorem carriesComment_iff_of_head (h : behind.head? ≠ some '/') :
    CarriesComment s behind ↔ CarriesComment s [] := by
  have hopens : ∀ rest, commentSign <+: rest ++ behind ↔ commentSign <+: rest ++ [] := by
    intro rest
    have hbehind : ∀ sign, ¬ '/' :: sign <+: behind := by
      rintro sign ⟨more, rfl⟩
      exact h rfl
    match rest with
    | [] => simpa [commentSign] using hbehind ['/']
    | [d] => simpa [commentSign] using fun _ => hbehind []
    | d :: e :: rest => simp [commentSign]
  exact forall₂_congr fun rest _ => hopens rest

/-- A comment sign is part of what goes on behind a line feed, whatever follows it. -/
theorem CarriesComment.mono (h : CarriesComment s []) (behind : List Char) :
    CarriesComment s behind := by
  intro rest hrest
  have hopens := h rest hrest
  rw [List.append_nil] at hopens
  exact hopens.trans (List.prefix_append rest behind)

/-- Without slashes there is no comment sign behind a line feed. -/
theorem carriesComment_iff_of_noSlash (h : '/' ∉ s) : CarriesComment s [] ↔ '\n' ∉ s := by
  constructor
  · intro hcarries hfeed
    obtain ⟨body, rest, rfl⟩ := List.append_of_mem hfeed
    have hopens := hcarries rest (List.suffix_append _ _)
    rw [List.append_nil] at hopens
    exact h (by simp [hopens.subset (show '/' ∈ commentSign by decide)])
  · intro hfeed
    exact carriesComment_of_notMem hfeed []

/-- The lines of a text with a line feed at its end are comments just if the text begins with a
comment sign and carries the comment over each of its own line feeds. -/
theorem forall_splitLines_iff (s : List Char) :
    (∀ line ∈ splitLines (s ++ ['\n']), commentSign <+: line) ↔
      commentSign <+: s ∧ CarriesComment s [] := by
  -- a comment sign does not go over a line feed
  have hfirst : ∀ body rest : List Char, commentSign <+: body ++ '\n' :: rest ↔ commentSign <+: body := by
    intro body rest
    match body with
    | [] => simp [commentSign]
    | [d] => simp [commentSign]
    | d :: e :: body => simp [commentSign]
  induction s using lineFeed_induction with
  | last s hs =>
      rw [splitLines_line hs]
      simp [splitLines, hfirst, carriesComment_of_notMem hs]
  | line body rest hbody ih =>
      rw [List.append_assoc, List.cons_append, splitLines_line hbody, List.forall_mem_cons, hfirst,
        hfirst, carriesComment_append, carriesComment_cons, List.append_nil]
      simp only [ih, carriesComment_of_notMem hbody, true_and, forall_const, List.append_nil]

/-! ## Templates -/

/-- A literal part of a template is not empty, begins with something else than a slash and carries
comments. -/
def Literal (s : List Char) : Prop :=
  s ≠ [] ∧ s.head? ≠ some '/' ∧ CarriesComment s []

instance : DecidablePred Literal := fun s =>
  inferInstanceAs (Decidable (s ≠ [] ∧ s.head? ≠ some '/' ∧ CarriesComment s []))

/-- Texts with literal parts behind them carry a comment just if each of the texts does. -/
theorem carriesComment_template {parts : List (String × String)}
    (hparts : ∀ part ∈ parts, Literal part.2.toList) :
    CarriesComment (parts.flatMap fun part => part.1.toList ++ part.2.toList) [] ↔
      ∀ part ∈ parts, CarriesComment part.1.toList [] := by
  induction parts with
  | nil => simp [carriesComment_nil]
  | cons part parts ih =>
      obtain ⟨hne, hhead, hliteral⟩ := hparts part (by simp)
      -- a line feed at the end of a text is not made good by the literal part behind it
      have hbehind : ∀ rest, (part.2.toList ++ rest).head? ≠ some '/' := by
        intro rest
        rwa [List.head?_append_of_ne_nil _ hne]
      have hothers := ih fun other hother => hparts other (by simp [hother])
      rw [List.flatMap_cons, List.append_assoc, carriesComment_append, carriesComment_append,
        List.append_assoc, carriesComment_iff_of_head (hbehind _), List.forall_mem_cons, hothers]
      simp only [hliteral.mono, true_and]

/-! ## Line ends -/

/-- A text has its own lines when its line ends are unified, but for carriage returns. -/
theorem returned_unifyLineEnds (s : List Char) : Returned (unifyLineEnds s) s := by
  have hpattern : ['\r', '\n'] ≠ [] := by simp
  obtain ⟨n, hpass⟩ := Rule.substituted_replaceAll hpattern ['\n'] s none
  exact returned_of_substituted hpass

/-- A sign without line ends stands in front of both texts or of neither. -/
theorem Returned.prefix_iff (h : Returned s t) {sign : List Char} (hfeed : '\n' ∉ sign)
    (hreturn : '\r' ∉ sign) : sign <+: s ↔ sign <+: t := by
  induction h generalizing sign with
  | nil => exact Iff.rfl
  | keep c h ih =>
      cases sign with
      | nil => simp
      | cons d sign =>
          rw [List.mem_cons, not_or] at hfeed hreturn
          rw [List.cons_prefix_cons, List.cons_prefix_cons, ih hfeed.2 hreturn.2]
  | insert h =>
      cases sign with
      | nil => simp
      | cons d sign =>
          rw [List.mem_cons, not_or] at hfeed hreturn
          simp [Ne.symm hfeed.1, Ne.symm hreturn.1]

/-- Carriage returns in front of line feeds do not matter to comments. -/
theorem Returned.carriesComment_iff (h : Returned s t) : CarriesComment s [] ↔ CarriesComment t [] := by
  have hsign : ∀ {s t : List Char}, Returned s t →
      (commentSign <+: s ++ [] ↔ commentSign <+: t ++ []) := by
    intro s t h
    rw [List.append_nil, List.append_nil]
    exact h.prefix_iff (by decide) (by decide)
  induction h with
  | nil => exact Iff.rfl
  | keep c h ih => simp only [carriesComment_cons, hsign h, ih]
  | insert h ih =>
      have hreturn : ¬ '\r' = '\n' := by decide
      simp only [carriesComment_cons, hsign h, ih, hreturn, false_implies, true_and]

/-- Carriage returns in front of line feeds do not change the last character. -/
theorem Returned.getLast?_eq (h : Returned s t) : t.getLast? = s.getLast? := by
  induction h with
  | nil => rfl
  | keep c h ih => rw [List.getLast?_cons, List.getLast?_cons, ih]
  | insert h ih => simp [List.getLast?_cons, ih]

/-- Unifying line ends and cutting white space at the end takes one line feed from a text that ends
in something else than white space. -/
theorem dropEndWhile_unifyLineEnds (hlast : s.getLast? = some c) (hc : isSpace c = false) :
    dropEndWhile isSpace (unifyLineEnds (s ++ ['\n'])) = unifyLineEnds s := by
  have hreturn : s.getLast? ≠ some '\r' := by
    rintro heq
    obtain rfl := Option.some.inj (hlast.symm.trans heq)
    exact absurd hc (by decide)
  have hunified : unifyLineEnds (s ++ ['\n']) = unifyLineEnds s ++ ['\n'] := by
    rw [(Rule.unifyLineEnds_append s []).1 hreturn, unifyLineEnds, unifyLineEnds, Rule.replaceAll_nil]
  rw [(returned_unifyLineEnds s).getLast?_eq] at hlast
  obtain ⟨front, hfront⟩ := List.getLast?_eq_some_iff.1 hlast
  rw [hunified, dropEndWhile_append_of _ _ _ (by decide), hfront, dropEndWhile_append_of_not _ _ _ hc]

end

end Text

open Text

/-! ## The header -/

namespace FragmentContext

/-- The texts that stand in the header. The label, the directory of the sources and the entry point
make up one of them. -/
def headerTexts (c : FragmentContext) : List String :=
  [c.generatedName, c.description, c.label ++ "/" ++ c.sourceSubdir ++ "/" ++ c.entryPoint,
    c.entryFunction, c.helpFunction, c.standaloneProgram, c.invocation]

/-- What stands in the header behind each of its texts. -/
def headerLiterals : List String :=
  [" - ", "\n" ++ "// Auto-synced from ",
    "\n" ++ "//\n" ++ "// Changes from standalone version:\n" ++ "// - int main() -> int ",
    "()\n" ++ "// - print_help() -> ", "()\n" ++ "// - \"", "\" -> \"",
    "\" in help text\n" ++ "//\n" ++
      "// NOTE: This file is auto-generated. Manual edits will be overwritten!"]

/-- The comment lines of the header, without the line feed at their end. -/
def headerBody (c : FragmentContext) : List Char :=
  "// ".toList ++ (c.headerTexts.zip headerLiterals).flatMap fun part =>
    part.1.toList ++ part.2.toList

/-- The text of the header is its comment lines and a line feed. -/
theorem toList_headerText (c : FragmentContext) : c.headerText.toList = c.headerBody ++ ['\n'] := by
  have hnote : "// NOTE: This file is auto-generated. Manual edits will be overwritten!\n" =
      "// NOTE: This file is auto-generated. Manual edits will be overwritten!" ++ "\n" := by
    decide +kernel
  have hfeed : "\n".toList = ['\n'] := by decide
  unfold headerText
  simp only [hnote, headerBody, headerTexts, headerLiterals, String.toList_append, hfeed,
    List.zip_cons_cons, List.zip_nil_right, List.flatMap_cons, List.flatMap_nil, List.append_assoc,
    List.nil_append]

/-- The last comment line ends in its note. -/
theorem getLast?_headerBody (c : FragmentContext) : c.headerBody.getLast? = some '!' := by
  simp only [headerBody, headerTexts, headerLiterals, String.toList_append, List.zip_cons_cons,
    List.zip_nil_right, List.flatMap_cons, List.flatMap_nil, List.append_nil, List.getLast?_append]
  rfl

/-- The header is its comment lines, with single line feeds and an empty line behind them. -/
theorem toList_header (c : FragmentContext) :
    c.header.toList = unifyLineEnds c.headerBody ++ ['\n', '\n'] := by
  rw [header, String.toList_ofList, toList_headerText,
    dropEndWhile_unifyLineEnds c.getLast?_headerBody (by decide)]

/-- All literal parts of the header carry comments. -/
theorem literal_headerLiterals : ∀ literal ∈ headerLiterals, Literal literal.toList := by
  decide +kernel

/-- The header has only comments in front of its empty line exactly if each text in it carries
them. -/
theorem commentsOnly_header_iff (c : FragmentContext) :
    CommentsOnly c.header.toList ↔ ∀ text ∈ c.headerTexts, CarriesComment text.toList [] := by
  have hlines : splitLines c.header.toList =
      splitLines (unifyLineEnds c.headerBody ++ ['\n']) ++ [['\n']] := by
    rw [toList_header, splitLines_append]
    simp [splitLines, takeLine]
  have hreturned := returned_unifyLineEnds c.headerBody
  have hopens : commentSign <+: c.headerBody :=
    List.IsPrefix.trans (by decide) (List.prefix_append "// ".toList _)
  have hliterals : ∀ part ∈ c.headerTexts.zip headerLiterals, Literal part.2.toList :=
    fun part hpart => literal_headerLiterals part.2 (List.of_mem_zip hpart).2
  have htexts : (∀ part ∈ c.headerTexts.zip headerLiterals, CarriesComment part.1.toList []) ↔
      ∀ text ∈ c.headerTexts, CarriesComment text.toList [] := by
    have hmap : (c.headerTexts.zip headerLiterals).map Prod.fst = c.headerTexts :=
      List.map_fst_zip le_rfl
    conv_rhs => rw [← hmap, List.forall_mem_map]
  calc CommentsOnly c.header.toList
      ↔ ∀ line ∈ splitLines (unifyLineEnds c.headerBody ++ ['\n']), commentSign <+: line := by
        simp [CommentsOnly, hlines]
    _ ↔ commentSign <+: c.headerBody ∧ CarriesComment c.headerBody [] := by
        rw [forall_splitLines_iff, hreturned.prefix_iff (by decide) (by decide),
          hreturned.carriesComment_iff]
    _ ↔ CarriesComment ((c.headerTexts.zip headerLiterals).flatMap fun part =>
          part.1.toList ++ part.2.toList) [] := by
        rw [and_iff_right hopens, headerBody, carriesComment_append,
          and_iff_right (carriesComment_of_notMem (by decide) _)]
    _ ↔ ∀ text ∈ c.headerTexts, CarriesComment text.toList [] := by
        rw [carriesComment_template hliterals, htexts]

/-- The header in front of a text: no line of the text goes on in the header. -/
theorem splitLines_header_append (c : FragmentContext) (text : List Char) :
    splitLines (c.header.toList ++ text) = splitLines c.header.toList ++ splitLines text := by
  have hfeed : c.header.toList = (unifyLineEnds c.headerBody ++ ['\n']) ++ ['\n'] := by
    rw [toList_header, List.append_assoc]
    rfl
  rw [hfeed, List.append_assoc _ ['\n'] text, List.singleton_append, splitLines_append]

end FragmentContext

/-! ## Settings -/

namespace Settings

/-- Settings that a tool directory leads to, or that an accepted manifest leaves behind. -/
inductive Obtained : Settings → Prop
  | made {toolDir : Path} {s : Settings} (h : Settings.ofToolDir toolDir = .ok s) : Obtained s
  | accepted {s t : Settings} {m : Manifest} (h : s.apply m = (t, .ok ())) : Obtained t

variable {s : Settings}

/-- Settings that are obtained map their entry point. -/
theorem Obtained.mapped (h : s.Obtained) : s.Mapped := by
  cases h with
  | made h =>
      obtain ⟨hostDir, candidates, -, -, rfl⟩ := ofToolDir_eq_ok_iff.1 h
      exact validate_eq_ok_iff.1 (validate_defaults _ hostDir candidates)
  | accepted h => exact (apply_eq_ok_iff.1 h).2

/-- No naming is refused by settings that map their entry point. -/
theorem apply_naming (h : s.Mapped) (naming : Naming) :
    s.apply { naming := some naming } =
      ({ s with naming, stampPrefix := stampPrefixOf naming.label }, .ok ()) :=
  apply_eq_ok_iff.2 ⟨⟨rfl, rfl, rfl, rfl, rfl, rfl, rfl, rfl, rfl, rfl, rfl, rfl, rfl, rfl⟩, h⟩

/-- The header of settings has only comments in front of its empty line exactly if each text in it
carries them. A generated name, without slashes, does just if it has no line feed. The lines of the
adapted entry point are those of the header and, behind them, those of the body. Every naming is
accepted, however its texts go on behind a line feed. -/
theorem header_comments (h : s.Obtained) :
    ∃ context transformer, FragmentContext.ofSettings s = .ok context ∧
      Transformer.ofSettings s = .ok transformer ∧
      (CommentsOnly context.header.toList ↔
        ∀ text ∈ context.headerTexts, CarriesComment text.toList []) ∧
      (CarriesComment context.generatedName.toList [] ↔ '\n' ∉ context.generatedName.toList) ∧
      (∀ source, source.Same s.entryPoint → ∀ text, ∃ body,
        transformer.transform text source = context.header ++ body ∧
        splitLines (transformer.transform text source).toList =
          splitLines context.header.toList ++ splitLines body.toList) ∧
      ∀ naming, s.apply { naming := some naming } =
        ({ s with naming, stampPrefix := stampPrefixOf naming.label }, .ok ()) := by
  obtain ⟨context, transformer, hcontext, htransformer, -, hentry, hstructural⟩ :=
    Transformer.exists_ofSettings (validate_eq_ok_iff.2 h.mapped)
  obtain ⟨m, hget⟩ := Option.isSome_iff_exists.1 (mapped_iff.1 h.mapped)
  obtain ⟨-, -, hslash⟩ := Transformer.generatedName_of_get? hget hcontext
  refine ⟨context, transformer, hcontext, htransformer, context.commentsOnly_header_iff,
    carriesComment_iff_of_noSlash hslash, ?_, apply_naming h.mapped⟩
  intro source hsource text
  rw [← hentry] at hsource
  obtain ⟨body, hbody⟩ : ∃ body, transformer.transform text source =
      String.ofList (context.header.toList ++ body) := by
    rw [Transformer.transform_eq hsource, hstructural]
    exact ⟨_, congrArg String.ofList (List.append_assoc _ _ context.adapter.toList)⟩
  refine ⟨String.ofList body, ?_, ?_⟩
  · rw [hbody, String.ofList_append, String.ofList_toList]
  · rw [hbody, String.toList_ofList, String.toList_ofList, context.splitLines_header_append]

/-- A naming whose description goes on behind a line feed. -/
def twoLineNaming : Naming :=
  { description := "module management\nint x;" }

/-- The settings of a tool directory have a header of comments. A manifest that gives the
description a second line is accepted, and this line is program text in the header. -/
theorem header_comments_sample :
    ∃ start t context broken, Settings.ofToolDir ⟨"w/p/host/tool"⟩ = .ok start ∧
      start.apply { naming := some twoLineNaming } = (t, .ok ()) ∧
      FragmentContext.ofSettings start = .ok context ∧ CommentsOnly context.header.toList ∧
      FragmentContext.ofSettings t = .ok broken ∧ ¬ CommentsOnly broken.header.toList ∧
      "int x;\n".toList ∈ splitLines broken.header.toList := by
  obtain ⟨context, -, hcontext, -, hcomments, -, -, hnaming⟩ :=
    header_comments (.made ofToolDir_sample)
  have haccepted := hnaming twoLineNaming
  obtain ⟨broken, -, hbroken, -⟩ := header_comments (.accepted haccepted)
  have htexts : ∀ text ∈ context.headerTexts, CarriesComment text.toList [] := by
    obtain rfl := Except.ok.inj hcontext
    decide +kernel
  have hline : "int x;\n".toList ∈ splitLines broken.header.toList := by
    rw [FragmentContext.toList_header]
    obtain rfl := Except.ok.inj hbroken
    decide +kernel
  refine ⟨_, _, context, broken, ofToolDir_sample, haccepted, hcontext, hcomments.2 htexts, hbroken,
    ?_, hline⟩
  rintro ⟨comments, hlines, hall⟩
  rw [hlines, List.mem_append, List.mem_singleton] at hline
  rcases hline with hcomment | hempty
  · exact absurd (hall _ hcomment) (by decide)
  · exact absurd hempty (by decide)

end Settings

end Vendoring
