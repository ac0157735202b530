import Mathlib.Data.List.Infix
import Vendoring.Proofs.Rule.HelpFunction
import Vendoring.Proofs.Rule.Substitutions
import Vendoring.Proofs.Rule.UsageText
import Vendoring.Proofs.Settings.Built
import Vendoring.Transformer

/-!
# The entry point behind all rules

With the default naming, the rule for the signature leaves no signature of an entry point and makes
the embedded one from each, and the rule for the help function leaves no call of it. The rules
behind them change pieces of the text that no signature and no call can run into or begin in, so
this still holds when all rules have been applied (`transform_entryPoint`).
-/

namespace Vendoring

namespace Rule

open Text

/-- The signature of the embedded entry point. -/
def embeddedSignature : List Char :=
  "int hymo_main(int argc, char** argv)".toList

/-- The default naming writes the embedded signature. -/
theorem signature_default :
    signature ({} : Naming).entryFunction.toList = embeddedSignature := rfl

/-! ## The embedded signature -/

/-- The embedded signature has a letter in it that no signature has. -/
theorem embeddedSignature_barrier :
    embeddedSignature = "int h".toList ++ 'y' :: "mo_main(int argc, char** argv)".toList := rfl

/-- Two ends of the embedded signature begin like a signature does, behind its first character. -/
theorem embeddedSignature_ends {w : List Char} (hw : w <:+ embeddedSignature)
    (hfirst : w.head? = some 'i') :
    w = embeddedSignature ∨ w = "in(int argc, char** argv)".toList ∨
      w = "int argc, char** argv)".toList := by
  have hall : ∀ w ∈ embeddedSignature.tails, w.head? = some 'i' → w = embeddedSignature ∨
      w = "in(int argc, char** argv)".toList ∨ w = "int argc, char** argv)".toList := by
    decide
  exact hall w ((List.mem_tails w _).2 hw) hfirst

/-- The default name of the entry function is an identifier. -/
theorem identifier_entryFunction : Identifier ({} : Naming).entryFunction.toList :=
  ⟨by decide, List.all_eq_true.1 (by decide), by decide⟩

/-- No signature begins in the embedded one. -/
theorem barren_embeddedSignature : Barren Signature embeddedSignature :=
  barren_signature identifier_entryFunction (by decide)

/-- The embedded signature does not run into a signature. -/
theorem sealed_of_signature {m : List Char} (hm : Signature m) : Sealed (· = embeddedSignature) m := by
  rintro a w heq _ hw s ⟨rest, hrest⟩
  exact barren_embeddedSignature w ⟨a, heq⟩ hw rest m hm ⟨s, hrest.symm⟩

/-- The embedded signature does not run into itself. -/
theorem sealed_self : Sealed (· = embeddedSignature) embeddedSignature := by
  intro a w heq ha hw s hopens
  have hlength := congrArg List.length heq
  have hpos := List.length_pos_iff.2 ha
  rw [List.length_append] at hlength
  have hshort : w <+: embeddedSignature :=
    List.prefix_of_prefix_length_le hopens (List.prefix_append embeddedSignature s) (by omega)
  have hfirst : w.head? = some 'i' := by
    obtain ⟨c, w, rfl⟩ := List.exists_cons_of_ne_nil hw
    obtain ⟨rfl, -⟩ := List.cons_prefix_cons.1 hshort
    rfl
  rcases embeddedSignature_ends ⟨a, heq⟩ hfirst with rfl | rfl | rfl
  · omega
  · exact absurd hshort (by decide)
  · exact absurd hshort (by decide)

/-- The embedded signature does not begin in a signature. -/
theorem barren_of_signature {m : List Char} (hm : Signature m) : Barren (· = embeddedSignature) m := by
  rintro w hw hne s x rfl hopens
  have hlast : w.getLast? = some ')' := by
    obtain ⟨a, rfl⟩ := hw
    rw [← framed_signature.getLast _ hm, List.getLast?_append, List.getLast?_eq_some_getLast hne]
    rfl
  have hletters : ∀ c ∈ w, SignatureLetter c := fun c hc =>
    framed_signature.letters m hm c (hw.subset hc)
  rcases List.prefix_or_prefix_of_prefix hopens (List.prefix_append w s) with hlong | hshort
  · have hy : SignatureLetter 'y' := hletters 'y' (hlong.subset (by decide))
    exact absurd hy (by decide)
  · rw [embeddedSignature_barrier] at hshort
    exact not_prefix_of_barrier hne hlast hletters (by decide) (by decide) hshort

/-- The rule for the signature leaves none and makes an embedded one from each. -/
theorem count_entryPoint (s : List Char) :
    count true Signature ((Rule.entryPoint {}).edit s) = 0 ∧
      count false (· = embeddedSignature) ((Rule.entryPoint {}).edit s) =
        count true Signature s + count false (· = embeddedSignature) s := by
  have hne : embeddedSignature ≠ [] := by decide
  have hreplaced := replaced_substitute (recognises_signature ({} : Naming).entryFunction.toList) none s
  rw [signature_default] at hreplaced
  constructor
  · exact count_edit_entryPoint identifier_entryFunction (by decide) s
  · exact hreplaced.countFrom_text hne lone_signature sealed_self
      (fun m hm => sealed_of_signature hm) (fun m hm => barren_of_signature hm) rfl

/-! ## The embedded help function -/

/-- A call of the embedded help function, up to its parenthesis. -/
def embeddedHelpCall : List Char :=
  "print_hymo_help(".toList

/-- A declaration of the embedded help function. -/
def embeddedHelpDeclaration : List Char :=
  "void print_hymo_help()".toList

/-- The default name of the help function is an identifier. -/
theorem identifier_helpFunction : Identifier ({} : Naming).helpFunction.toList :=
  ⟨by decide, List.all_eq_true.1 (by decide), by decide⟩

/-! ## Signatures beside other edits -/

/-- The characters of signatures, the embedded one included. -/
def EntryLetter (c : Char) : Prop :=
  SignatureLetter c ∨ c ∈ embeddedSignature

instance : DecidablePred EntryLetter := fun c =>
  inferInstanceAs (Decidable (SignatureLetter c ∨ c ∈ embeddedSignature))

/-- Signatures are framed by their first and last characters. -/
theorem framed_entry : Framed Signature 'i' ')' EntryLetter :=
  framed_signature.mono fun _ => Or.inl

/-- So is the embedded signature, with the same characters. -/
theorem framed_embeddedSignature : Framed (· = embeddedSignature) 'i' ')' EntryLetter :=
  (framed_text rfl rfl).mono fun _ => Or.inr

/-- A call of the help function is foreign to signatures. -/
theorem foreign_helpCall {m : List Char} (h : HelpCall m) : Foreign 'i' ')' EntryLetter m := by
  cases h with
  | @mk a ha =>
      refine ⟨"print_hel".toList, 'p', a ++ ['('], ?_, by decide, by decide, ?_⟩
      · simp [helpName]
      · simp [ha.notMem (show isSpace 'i' = false by decide)]

/-- A declaration of the help function is foreign to signatures. -/
theorem foreign_helpDeclaration {m : List Char} (h : HelpDeclaration m) :
    Foreign 'i' ')' EntryLetter m := by
  cases h with
  | @mk front call c hfront hcall hc =>
      have hclosing : 'i' ∉ c ++ [')'] := by simp [hc.notMem (show isSpace 'i' = false by decide)]
      have htype : ')' ∉ front := hfront.notMem (by decide) (by decide)
      exact ((foreign_helpCall hcall).append_right hclosing).append_left htype

/-- What the declaration becomes is foreign to signatures, too. -/
theorem foreign_embeddedHelpDeclaration : Foreign 'i' ')' EntryLetter embeddedHelpDeclaration :=
  ⟨"void print_hymo_hel".toList, 'p', "()".toList, rfl, by decide, by decide, by decide⟩

/-- What the call becomes is foreign to signatures, too. -/
theorem foreign_embeddedHelpCall : Foreign 'i' ')' EntryLetter embeddedHelpCall :=
  ⟨"print_hymo_hel".toList, 'p', "(".toList, rfl, by decide, by decide, by decide⟩

/-- The rule for the help function keeps the number of signatures, of either kind. -/
theorem count_helpFunction {bounded : Bool} {L : Pattern}
    [∀ previous s, Decidable (Begins bounded L previous s)] (h : Framed L 'i' ')' EntryLetter)
    (s : List Char) :
    count bounded L ((Rule.helpFunction {}).edit s) = count bounded L s := by
  have hdeclared := (replaced_substitute
    (recognises_helpDeclaration ({} : Naming).helpFunction.toList) none s).edited
  have hcalled := (replaced_substitute (recognises_helpCall ({} : Naming).helpFunction.toList) none
    (substitute (recogniseHelpDeclaration ({} : Naming).helpFunction.toList) none s)).edited
  rw [hdeclared.count_eq, hcalled.count_eq]
  · rfl
  · rintro m r ⟨hm, rfl⟩
    refine h.harmless (foreign_helpCall hm) foreign_embeddedHelpCall ?_
    rw [framed_helpCall.getLast m hm]
    rfl
  · rintro m r ⟨hm, rfl⟩
    refine h.harmless (foreign_helpDeclaration hm) foreign_embeddedHelpDeclaration ?_
    rw [hm.getLast]
    rfl

/-! ## The usage text -/

/-- The rule for the usage text keeps the number of matches of a pattern, if none of them has one of
the letters `U`, `d` and `k`, and if they neither end with a letter of the program in front of `d`
nor begin with one of the others or a blank. -/
theorem count_usageBanner {bounded : Bool} {L : Pattern}
    [∀ previous s, Decidable (Begins bounded L previous s)] {first last : Char}
    {letters : Char → Prop} (h : Framed L first last letters)
    (hletters : ¬ letters 'U' ∧ ¬ letters 'd' ∧ ¬ letters 'k') (hlast : last ∉ "hymo".toList)
    (hline : first ∉ "sage: hymod".toList) (hembedded : first ∉ "SAGE: ksud hymo".toList)
    (hinvocation : first ∉ "sud hymo ".toList) (hblank : isBlank first = false) (s : List Char) :
    count bounded L ((Rule.usageBanner {}).edit s) = count bounded L s := by
  obtain ⟨hU, hd, hk⟩ := hletters
  have hbanner := edited_replaceAll (usageLine ({} : Naming).standaloneProgram.toList)
    (embeddedUsageLine ({} : Naming).invocation.toList) s
  have hcommand := edited_command ({} : Naming).standaloneProgram.toList
    ({} : Naming).invocation.toList none (replaceAll (usageLine ({} : Naming).standaloneProgram.toList)
      (embeddedUsageLine ({} : Naming).invocation.toList) s)
  rw [hbanner.count_eq, hcommand.count_eq]
  · rfl
  · rintro m r ⟨⟨w, hw, hne, rfl⟩, rfl⟩
    have hfirst : first ∉ w := by
      intro hmem
      rw [hw first hmem] at hblank
      cases hblank
    refine h.harmless ⟨"hymo".toList, 'd', w, rfl, hd, hlast, hfirst⟩
      ⟨[], 'k', "sud hymo ".toList, rfl, hk, by simp, hinvocation⟩ ?_
    have hspace : w.getLast hne = ' ' ∨ w.getLast hne = '\t' := by
      simpa [isBlank] using hw _ (List.getLast_mem hne)
    rw [List.getLast?_append, List.getLast?_eq_some_getLast hne]
    rcases hspace with hspace | hspace <;> rw [hspace] <;> decide
  · rintro m r ⟨rfl, rfl⟩
    exact h.harmless ⟨[], 'U', "sage: hymod".toList, rfl, hU, by simp, hline⟩
      ⟨[], 'U', "SAGE: ksud hymo".toList, rfl, hU, by simp, hembedded⟩ (by decide)

/-! ## The rules together -/

/-- The text of the entry point itself, adapted. -/
def embeddedBody (s : List Char) : List Char :=
  (Rule.usageBanner {}).edit ((Rule.helpFunction {}).edit ((Rule.entryPoint {}).edit s))

/-- No later rule undoes what the one for the signature did, and the usage text brings back no
call. -/
theorem count_embeddedBody (s : List Char) :
    count true Signature (embeddedBody s) = 0 ∧ count true HelpCall (embeddedBody s) = 0 ∧
      count false (· = embeddedSignature) (embeddedBody s) =
        count true Signature s + count false (· = embeddedSignature) s := by
  obtain ⟨hnone, hmade⟩ := count_entryPoint s
  refine ⟨?_, ?_, ?_⟩
  · calc count true Signature (embeddedBody s)
        = count true Signature ((Rule.helpFunction {}).edit ((Rule.entryPoint {}).edit s)) :=
          count_usageBanner framed_entry (by decide) (by decide) (by decide) (by decide) (by decide)
            (by decide) _
      _ = count true Signature ((Rule.entryPoint {}).edit s) := count_helpFunction framed_entry _
      _ = 0 := hnone
  · calc count true HelpCall (embeddedBody s)
        = count true HelpCall ((Rule.helpFunction {}).edit ((Rule.entryPoint {}).edit s)) :=
          count_usageBanner framed_helpCall (by decide) (by decide) (by decide) (by decide)
            (by decide) (by decide) _
      _ = 0 := count_edit_helpFunction identifier_helpFunction (by decide) _
  · calc count false (· = embeddedSignature) (embeddedBody s)
        = count false (· = embeddedSignature)
            ((Rule.helpFunction {}).edit ((Rule.entryPoint {}).edit s)) :=
          count_usageBanner framed_embeddedSignature (by decide) (by decide) (by decide) (by decide)
            (by decide) (by decide) _
      _ = count false (· = embeddedSignature) ((Rule.entryPoint {}).edit s) :=
          count_helpFunction framed_embeddedSignature _
      _ = count true Signature s + count false (· = embeddedSignature) s := hmade

end Rule

namespace Transformer

open Rule

/-- The text of a source when the literal rules have been applied. -/
def afterLiterals (t : Transformer) (text : String) : List Char :=
  (t.literal.map fun s => .literal s.pattern s.replacement).foldl (fun s (rule : Rule) => rule.edit s)
    (Text.unifyLineEnds text.toList)

/-- The structural rules apply to the entry point behind the literal ones. -/
theorem transform_eq {t : Transformer} {source : Path} (h : source.Same t.entryPoint) (text : String) :
    t.transform text source =
      String.ofList (t.structural.foldl (fun s rule => rule.edit s) (t.afterLiterals text)) := by
  have hentry : t.isEntryPoint source = true := decide_eq_true h
  rw [transform_eq_substituteAll, if_pos hentry]
  rfl

/-- Validated settings have a transformer. -/
theorem exists_ofSettings {settings : Settings} (h : settings.validate = .ok ()) :
    ∃ context transformer, FragmentContext.ofSettings settings = .ok context ∧
      ofSettings settings = .ok transformer ∧
      transformer.literal = settings.substitutions ∧
      transformer.entryPoint = settings.entryPoint ∧
      transformer.structural = [.entryPoint settings.naming, .helpFunction settings.naming,
        .usageBanner settings.naming, .header context.header, .adapter context.adapter] := by
  obtain ⟨destination, hdestination⟩ := Settings.exists_entryPointDestination h
  unfold ofSettings FragmentContext.ofSettings
  simp only [hdestination]
  exact ⟨_, _, rfl, rfl, rfl, rfl, rfl⟩

/-- The adapted entry point is a body between the header and the adapter. The body has no signature
of an entry point and no call of the help function; it has one embedded signature for each signature
that the literal rules left and for each embedded one that they left. -/
theorem transform_entryPoint {settings : Settings} (hnaming : settings.naming = {})
    (hvalid : settings.validate = .ok ()) :
    ∃ context transformer, FragmentContext.ofSettings settings = .ok context ∧
      ofSettings settings = .ok transformer ∧
      ∀ source, source.Same settings.entryPoint → ∀ text : String, ∃ body : String,
        transformer.transform text source = context.header ++ body ++ context.adapter ∧
        count true Signature body.toList = 0 ∧
        count true HelpCall body.toList = 0 ∧
        count false (· = embeddedSignature) body.toList =
          count true Signature (transformer.afterLiterals text) +
            count false (· = embeddedSignature) (transformer.afterLiterals text) := by
  obtain ⟨context, transformer, hcontext, htransformer, -, hentry, hstructural⟩ :=
    exists_ofSettings hvalid
  refine ⟨context, transformer, hcontext, htransformer, ?_⟩
  intro source hsource text
  rw [← hentry] at hsource
  rw [hnaming] at hstructural
  refine ⟨String.ofList (embeddedBody (transformer.afterLiterals text)), ?_, ?_⟩
  · rw [transform_eq hsource, hstructural]
    simp only [List.foldl_cons, List.foldl_nil]
    apply String.toList_injective
    simp only [String.toList_append, String.toList_ofList]
    rfl
  · rw [String.toList_ofList]
    exact count_embeddedBody _

/-- The settings for a tool in a project beside the checkout. -/
def besideSettings : Settings :=
  Settings.defaults ⟨"w/p/host/tool"⟩ ⟨"w/p/host"⟩ [⟨"w/p/meta-hymo"⟩, ⟨"w/meta-hymo"⟩]

/-- An entry point with a declaration of the embedded one, a signature with odd white space, and a
call. -/
def sampleEntry : String :=
  "int hymo_main(int argc, char** argv);\r\nint main (int argc, char *argv[]) \x7b print_help (); \x7d"

/-- The signature with odd white space and the call are adapted, and the declaration of the embedded
entry point stays. -/
theorem transform_entryPoint_sample :
    besideSettings.naming = {} ∧ besideSettings.validate = .ok () ∧
    (⟨"main.cpp"⟩ : Path).Same besideSettings.entryPoint ∧
    ∃ context transformer body, FragmentContext.ofSettings besideSettings = .ok context ∧
      ofSettings besideSettings = .ok transformer ∧
      transformer.transform sampleEntry ⟨"main.cpp"⟩ = context.header ++ body ++ context.adapter ∧
      count true Signature body.toList = 0 ∧
      count true HelpCall body.toList = 0 ∧
      count false (· = embeddedSignature) body.toList = 2 := by
  have hnaming : besideSettings.naming = {} := rfl
  have hvalid : besideSettings.validate = .ok () := rfl
  have hentry : (⟨"main.cpp"⟩ : Path).Same besideSettings.entryPoint := by decide
  obtain ⟨context, transformer, hcontext, htransformer, h⟩ := transform_entryPoint hnaming hvalid
  obtain ⟨body, htext, hsignatures, hcalls, hembedded⟩ := h ⟨"main.cpp"⟩ hentry sampleEntry
  refine ⟨hnaming, hvalid, hentry, context, transformer, body, hcontext, htransformer, htext,
    hsignatures, hcalls, ?_⟩
  obtain ⟨_, transformer', _, htransformer', hliteral, -, -⟩ := exists_ofSettings hvalid
  obtain rfl : transformer = transformer' := Except.ok.inj (htransformer.symm.trans htransformer')
  rw [hembedded, afterLiterals, hliteral]
  decide +kernel

end Transformer

end Vendoring
