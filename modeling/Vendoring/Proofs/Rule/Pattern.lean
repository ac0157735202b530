import Vendoring.Proofs.Rule.Occurrence

/-!
# What the structural rules look for

The patterns of the rules for the entry point, written out: the signature of an entry point
(`Signature`), a declaration of the help function (`HelpDeclaration`) and a call of it (`HelpCall`).
The recognisers find exactly these (`afterSignature?_eq_some_iff`, `recognises_helpDeclaration`,
`recognises_helpCall`).
-/

namespace Vendoring.Rule

open Text

/-- White space of any length. -/
def Spaces (w : List Char) : Prop :=
  ∀ c ∈ w, isSpace c = true

/-- One or more stars, each with white space in front of it. -/
inductive Stars : List Char → Prop
  | one {w : List Char} (hw : Spaces w) : Stars (w ++ ['*'])
  | more {w stars : List Char} (hw : Spaces w) (h : Stars stars) : Stars (w ++ '*' :: stars)

/-- A pair of brackets with white space in it and behind it, or nothing. -/
inductive Brackets : List Char → Prop
  | none : Brackets []
  | pair {v w : List Char} (hv : Spaces v) (hw : Spaces w) : Brackets ('[' :: (v ++ ']' :: w))

/-- The signature of an entry point: `int main(int argc, char* argv[])`, with white space between
any two signs, one or more stars, and brackets or none. -/
inductive Signature : Pattern
  | mk {a b c d e f stars g h brackets : List Char} (ha : Spaces a) (hane : a ≠ []) (hb : Spaces b)
      (hc : Spaces c) (hd : Spaces d) (hdne : d ≠ []) (he : Spaces e) (hf : Spaces f)
      (hstars : Stars stars) (hg : Spaces g) (hh : Spaces h) (hbrackets : Brackets brackets) :
      Signature ('i' :: 'n' :: 't' :: (a ++ 'm' :: 'a' :: 'i' :: 'n' :: (b ++ '(' :: (c ++
        'i' :: 'n' :: 't' :: (d ++ 'a' :: 'r' :: 'g' :: 'c' :: (e ++ ',' :: (f ++
        'c' :: 'h' :: 'a' :: 'r' :: (stars ++ (g ++ 'a' :: 'r' :: 'g' :: 'v' :: (h ++
        (brackets ++ [')'])))))))))))

/-- A call of the help function, up to its parenthesis. -/
inductive HelpCall : Pattern
  | mk {a : List Char} (ha : Spaces a) : HelpCall (helpName ++ a ++ ['('])

/-- What stands in front of the name in a declaration of the help function: `void`, behind `static`
or not. -/
inductive HelpType : List Char → Prop
  | plain {a : List Char} (ha : Spaces a) (hane : a ≠ []) : HelpType ('v' :: 'o' :: 'i' :: 'd' :: a)
  | static {z a : List Char} (hz : Spaces z) (hzne : z ≠ []) (ha : Spaces a) (hane : a ≠ []) :
      HelpType ('s' :: 't' :: 'a' :: 't' :: 'i' :: 'c' :: (z ++ 'v' :: 'o' :: 'i' :: 'd' :: a))

/-- A declaration of the help function: what looks like a call, with the type in front and the
closing parenthesis behind. -/
inductive HelpDeclaration : Pattern
  | mk {front call c : List Char} (hfront : HelpType front) (hcall : HelpCall call) (hc : Spaces c) :
      HelpDeclaration (front ++ (call ++ (c ++ [')'])))

/-! ## White space -/

/-- White space in front of another character is skipped. -/
theorem skipSpace_append {w : List Char} (hw : Spaces w) {c : Char} (hc : isSpace c = false)
    (s : List Char) : skipSpace (w ++ c :: s) = c :: s := by
  rw [skipSpace, List.dropWhile_append_of_pos hw, List.dropWhile_cons_of_neg (by simp [hc])]

/-- The empty text is white space. -/
theorem spaces_nil : Spaces [] :=
  fun _ hc => absurd hc List.not_mem_nil

/-- A blank is white space. -/
theorem spaces_blank : Spaces [' '] :=
  List.forall_mem_singleton.2 (by decide)

/-- White space has no other characters in it. -/
theorem Spaces.notMem {w : List Char} (h : Spaces w) {c : Char} (hc : isSpace c = false) : c ∉ w := by
  intro hmem
  rw [h c hmem] at hc
  cases hc

/-- What is skipped as white space is white space. -/
theorem exists_skipSpace (s : List Char) : ∃ w, Spaces w ∧ s = w ++ skipSpace s := by
  refine ⟨s.takeWhile isSpace, ?_, List.takeWhile_append_dropWhile.symm⟩
  exact List.all_eq_true.1 List.all_takeWhile

/-- White space that is there is skipped where some is needed. -/
theorem skipSomeSpace_append {w : List Char} (hw : Spaces w) (hne : w ≠ []) {c : Char}
    (hc : isSpace c = false) (s : List Char) : skipSomeSpace (w ++ c :: s) = some (c :: s) := by
  cases w with
  | nil => exact absurd rfl hne
  | cons d w =>
      have hd : isSpace d = true := hw d (by simp)
      have hw' : Spaces w := fun e he => hw e (by simp [he])
      rw [List.cons_append, skipSomeSpace, if_pos hd, skipSpace_append hw' hc]

/-- Where white space is needed, some is skipped. -/
theorem exists_skipSomeSpace {s rest : List Char} (h : skipSomeSpace s = some rest) :
    ∃ w, Spaces w ∧ w ≠ [] ∧ s = w ++ rest := by
  unfold skipSomeSpace at h
  split at h
  · rename_i c cs
    split at h
    · rename_i hc
      obtain rfl := Option.some.inj h
      obtain ⟨w, hw, hcs⟩ := exists_skipSpace cs
      refine ⟨c :: w, ?_, by simp, by rw [List.cons_append, ← hcs]⟩
      intro d hd
      rcases List.mem_cons.1 hd with rfl | hd
      · exact hc
      · exact hw d hd
    · cases h
  · cases h

/-! ## Stars and brackets -/

/-- Without a star behind it, white space is not skipped as part of stars. -/
theorem skipStars_append {w : List Char} (hw : Spaces w) {c : Char} (hc : isSpace c = false)
    (hstar : c ≠ '*') (s : List Char) : skipStars (w ++ c :: s) = w ++ c :: s := by
  unfold skipStars
  split
  · rename_i rest hskip
    rw [skipSpace_append hw hc] at hskip
    exact absurd (List.cons.inj hskip).1 hstar
  · rfl

/-- A star with white space in front of it is skipped. -/
theorem skipStars_star {w : List Char} (hw : Spaces w) (s : List Char) :
    skipStars (w ++ '*' :: s) = skipStars s := by
  rw [skipStars]
  split
  · rename_i rest hskip
    rw [skipSpace_append hw (by decide)] at hskip
    rw [(List.cons.inj hskip).2]
  · rename_i hskip
    exact absurd (skipSpace_append hw (by decide) s) (hskip s)

/-- Stars in front of another character are skipped, and the white space behind them is not. -/
theorem skipSomeStars_append {stars w : List Char} (h : Stars stars) (hw : Spaces w) {c : Char}
    (hc : isSpace c = false) (hstar : c ≠ '*') (s : List Char) :
    skipSomeStars (stars ++ (w ++ c :: s)) = some (w ++ c :: s) := by
  have hrest : ∀ {stars}, Stars stars → skipStars (stars ++ (w ++ c :: s)) = w ++ c :: s := by
    intro stars h
    induction h with
    | one hv =>
        rw [List.append_assoc, List.singleton_append, skipStars_star hv,
          skipStars_append hw hc hstar]
    | more hv _ ih => rw [List.append_assoc, List.cons_append, skipStars_star hv, ih]
  unfold skipSomeStars
  cases h with
  | one hv =>
      rw [List.append_assoc, List.singleton_append, skipSpace_append hv (by decide)]
      simp only [skipStars_append hw hc hstar]
  | more hv h =>
      rw [List.append_assoc, List.cons_append, skipSpace_append hv (by decide)]
      simp only [hrest h]

/-- A star behind spaces and the stars that follow, if any do, are stars. -/
theorem exists_stars_cons {s rest : List Char}
    (h : s = rest ∨ ∃ stars, Stars stars ∧ s = stars ++ rest) {t : List Char}
    (hspace : skipSpace t = '*' :: s) : ∃ stars, Stars stars ∧ t = stars ++ rest := by
  obtain ⟨w, hw, ht⟩ := exists_skipSpace t
  rw [hspace] at ht
  rcases h with rfl | ⟨stars, hstars, rfl⟩
  · exact ⟨w ++ ['*'], .one hw, by simpa using ht⟩
  · exact ⟨w ++ '*' :: stars, .more hw hstars, by simpa using ht⟩

/-- What is skipped as stars is nothing, or stars. -/
theorem skipStars_cases (s : List Char) :
    s = skipStars s ∨ ∃ stars, Stars stars ∧ s = stars ++ skipStars s := by
  fun_induction skipStars s with
  | case1 s rest hspace ih => exact Or.inr (exists_stars_cons ih hspace)
  | case2 s _ => exact Or.inl rfl

/-- Where stars are needed, some are skipped. -/
theorem exists_skipSomeStars {s rest : List Char} (h : skipSomeStars s = some rest) :
    ∃ stars, Stars stars ∧ s = stars ++ rest := by
  unfold skipSomeStars at h
  split at h
  · rename_i behind hspace
    obtain rfl := Option.some.inj h
    exact exists_stars_cons (skipStars_cases behind) hspace
  · cases h

/-- A pair of brackets, or none, is skipped in front of a closing parenthesis. -/
theorem skipBrackets_append {brackets : List Char} (h : Brackets brackets) (s : List Char) :
    skipBrackets (brackets ++ ')' :: s) = ')' :: s := by
  cases h with
  | none => rfl
  | pair hv hw =>
      rw [List.cons_append, List.append_assoc, List.cons_append, skipBrackets,
        skipSpace_append hv (by decide)]
      simp only [skipSpace_append hw (show isSpace ')' = false by decide)]

/-- White space in front of brackets and a closing parenthesis is skipped. -/
theorem skipSpace_brackets {w brackets : List Char} (hw : Spaces w) (h : Brackets brackets)
    (s : List Char) : skipSpace (w ++ (brackets ++ ')' :: s)) = brackets ++ ')' :: s := by
  cases h with
  | none => exact skipSpace_append hw (by decide) s
  | pair _ _ => exact skipSpace_append hw (by decide) _

/-- What is skipped as brackets is a pair of them, or nothing. -/
theorem exists_skipBrackets (s : List Char) :
    ∃ brackets, Brackets brackets ∧ s = brackets ++ skipBrackets s := by
  unfold skipBrackets
  split
  · rename_i rest
    split
    · rename_i rest' hspace
      obtain ⟨v, hv, hrest⟩ := exists_skipSpace rest
      obtain ⟨w, hw, hrest'⟩ := exists_skipSpace rest'
      rw [hspace] at hrest
      refine ⟨_, .pair hv hw, ?_⟩
      rw [List.cons_append, List.append_assoc, List.cons_append, ← hrest', ← hrest]
    · exact ⟨[], .none, rfl⟩
  · exact ⟨[], .none, rfl⟩

/-! ## Signatures -/

/-- A signature is recognised exactly where one stands. -/
theorem afterSignature?_eq_some_iff {s rest : List Char} :
    afterSignature? s = some rest ↔ ∃ m, Signature m ∧ s = m ++ rest := by
  constructor
  · intro h
    unfold afterSignature? at h
    simp only [Option.bind_eq_bind, Option.bind_eq_some_iff, dropPrefix?_eq_some_iff] at h
    obtain ⟨s₁, rfl, s₂, h₂, s₃, rfl, s₄, h₄, s₅, h₅, s₆, h₆, s₇, rfl, s₈, h₈, s₉, h₉, s₁₀, h₁₀,
      s₁₁, h₁₁, h₁₂⟩ := h
    obtain ⟨a, ha, hane, rfl⟩ := exists_skipSomeSpace h₂
    obtain ⟨b, hb, hs₃⟩ := exists_skipSpace s₃
    obtain ⟨c, hc, hs₄⟩ := exists_skipSpace s₄
    obtain ⟨d, hd, hdne, rfl⟩ := exists_skipSomeSpace h₆
    obtain ⟨e, he, hs₇⟩ := exists_skipSpace s₇
    obtain ⟨f, hf, hs₈⟩ := exists_skipSpace s₈
    obtain ⟨stars, hstars, rfl⟩ := exists_skipSomeStars h₁₀
    obtain ⟨g, hg, hs₁₀⟩ := exists_skipSpace s₁₀
    obtain ⟨h, hh, hs₁₁⟩ := exists_skipSpace s₁₁
    obtain ⟨brackets, hbrackets, hend⟩ := exists_skipBrackets (skipSpace s₁₁)
    refine ⟨_, .mk ha hane hb hc hd hdne he hf hstars hg hh hbrackets, ?_⟩
    rw [hs₃, h₄, hs₄, h₅, hs₇, h₈, hs₈, h₉, hs₁₀, h₁₁, hs₁₁, hend, h₁₂]
    simp only [List.cons_append, List.append_assoc, List.nil_append]
  · rintro ⟨m, ⟨ha, hane, hb, hc, hd, hdne, he, hf, hstars, hg, hh, hbrackets⟩, rfl⟩
    simp only [afterSignature?, List.cons_append, List.append_assoc, List.nil_append, dropPrefix?,
      if_true, Option.bind_eq_bind, Option.bind_some,
      skipSomeSpace_append ha hane (show isSpace 'm' = false by decide),
      skipSpace_append hb (show isSpace '(' = false by decide),
      skipSpace_append hc (show isSpace 'i' = false by decide),
      skipSomeSpace_append hd hdne (show isSpace 'a' = false by decide),
      skipSpace_append he (show isSpace ',' = false by decide),
      skipSpace_append hf (show isSpace 'c' = false by decide),
      skipSomeStars_append hstars hg (show isSpace 'a' = false by decide) (by decide),
      skipSpace_append hg (show isSpace 'a' = false by decide), skipSpace_brackets hh hbrackets,
      skipBrackets_append hbrackets]

/-! ## The help function -/

/-- A declaration without `static` is recognised to its end. -/
theorem afterHelpDeclaration?_plain {a b c : List Char} (ha : Spaces a) (hane : a ≠ []) (hb : Spaces b)
    (hc : Spaces c) (s : List Char) :
    afterHelpDeclaration?
      ('v' :: 'o' :: 'i' :: 'd' :: (a ++ (helpName ++ b ++ ['('] ++ (c ++ [')'])) ++ s)) = some s := by
  simp only [afterHelpDeclaration?, helpName, List.cons_append, List.append_assoc, List.nil_append,
    dropPrefix?, if_true, Option.bind_eq_bind, Option.bind_some,
    skipSomeSpace_append ha hane (show isSpace 'p' = false by decide),
    skipSpace_append hb (show isSpace '(' = false by decide),
    skipSpace_append hc (show isSpace ')' = false by decide)]

/-- A declaration without `static` is recognised only where one stands. -/
theorem exists_afterHelpDeclaration {s rest : List Char} (h : afterHelpDeclaration? s = some rest) :
    ∃ a call c, Spaces a ∧ a ≠ [] ∧ HelpCall call ∧ Spaces c ∧
      s = 'v' :: 'o' :: 'i' :: 'd' :: a ++ (call ++ (c ++ [')'])) ++ rest := by
  unfold afterHelpDeclaration? at h
  simp only [Option.bind_eq_bind, Option.bind_eq_some_iff, dropPrefix?_eq_some_iff] at h
  obtain ⟨s₁, rfl, s₂, h₂, s₃, rfl, s₄, h₄, h₅⟩ := h
  obtain ⟨a, ha, hane, rfl⟩ := exists_skipSomeSpace h₂
  obtain ⟨b, hb, hs₃⟩ := exists_skipSpace s₃
  obtain ⟨c, hc, hs₄⟩ := exists_skipSpace s₄
  refine ⟨a, _, c, ha, hane, .mk hb, hc, ?_⟩
  rw [hs₃, h₄, hs₄, h₅]
  simp only [List.cons_append, List.append_assoc, List.nil_append]

/-- A declaration of the help function is recognised exactly where one stands. -/
theorem afterHelpDeclaration?_eq_some_iff {s rest : List Char} :
    afterHelpDeclaration? ((afterStatic? s).getD s) = some rest ↔
      ∃ m, HelpDeclaration m ∧ s = m ++ rest := by
  constructor
  · intro h
    cases hstatic : afterStatic? s with
    | none =>
        rw [hstatic] at h
        obtain ⟨a, call, c, ha, hane, hcall, hc, rfl⟩ := exists_afterHelpDeclaration h
        exact ⟨_, .mk (.plain ha hane) hcall hc, rfl⟩
    | some behind =>
        rw [hstatic] at h
        obtain ⟨a, call, c, ha, hane, hcall, hc, rfl⟩ := exists_afterHelpDeclaration h
        unfold afterStatic? at hstatic
        simp only [Option.bind_eq_bind, Option.bind_eq_some_iff, dropPrefix?_eq_some_iff] at hstatic
        obtain ⟨s₁, rfl, h₁⟩ := hstatic
        obtain ⟨z, hz, hzne, rfl⟩ := exists_skipSomeSpace h₁
        refine ⟨_, .mk (.static hz hzne ha hane) hcall hc, ?_⟩
        simp only [List.cons_append, List.append_assoc, List.nil_append]
  · rintro ⟨m, ⟨hfront, ⟨hb⟩, hc⟩, rfl⟩
    cases hfront with
    | plain ha hane => exact afterHelpDeclaration?_plain ha hane hb hc rest
    | static hz hzne ha hane =>
        have hstatic := fun s => skipSomeSpace_append hz hzne (show isSpace 'v' = false by decide) s
        simp only [afterStatic?, List.cons_append, List.append_assoc, List.nil_append, dropPrefix?,
          if_true, Option.bind_eq_bind, Option.bind_some, hstatic, Option.getD_some]
        have hplain := afterHelpDeclaration?_plain ha hane hb hc rest
        simpa only [List.cons_append, List.append_assoc, List.nil_append] using hplain

/-- A call of the help function is recognised exactly where one stands. -/
theorem dropPrefix?_helpCall {s rest : List Char} :
    ((dropPrefix? helpName s).bind fun s => dropPrefix? ['('] (skipSpace s)) = some rest ↔
      ∃ m, HelpCall m ∧ s = m ++ rest := by
  constructor
  · intro h
    simp only [Option.bind_eq_some_iff, dropPrefix?_eq_some_iff] at h
    obtain ⟨s₁, rfl, h₁⟩ := h
    obtain ⟨a, ha, hs₁⟩ := exists_skipSpace s₁
    refine ⟨_, .mk ha, ?_⟩
    rw [hs₁, h₁, List.append_assoc, List.append_assoc]
  · rintro ⟨m, ⟨ha⟩, rfl⟩
    rw [List.append_assoc, List.append_assoc, List.singleton_append,
      dropPrefix?_eq_some_iff.2 rfl, Option.bind_some, skipSpace_append ha (by decide)]
    rfl

/-! ## Where a match begins -/

/-- A match of a pattern begins here just if the reader of the pattern gets to an end, at the start
of a word where that is asked for. -/
theorem begins_iff {L : Pattern} {after? : List Char → Option (List Char)}
    (h : ∀ {s rest}, after? s = some rest ↔ ∃ m, L m ∧ s = m ++ rest) (bounded : Bool)
    (previous : Option Char) (s : List Char) :
    Begins bounded L previous s ↔
      (bounded = true → atWordStart previous = true) ∧ (after? s).isSome = true := by
  refine and_congr_right ?_
  intro _
  rw [Option.isSome_iff_exists]
  constructor
  · rintro ⟨x, hx, rest, rfl⟩
    exact ⟨rest, h.2 ⟨x, hx, rfl⟩⟩
  · rintro ⟨rest, hrest⟩
    obtain ⟨m, hm, rfl⟩ := h.1 hrest
    exact ⟨m, hm, List.prefix_append m rest⟩

/-- What is found exactly where a match stands has one match there. -/
theorem prefixFree_of {L : Pattern} {after? : List Char → Option (List Char)}
    (h : ∀ {s rest}, after? s = some rest ↔ ∃ m, L m ∧ s = m ++ rest) : PrefixFree L := by
  intro m m' behind behind' hm hm' heq
  have hfound : after? (m ++ behind) = some behind := h.2 ⟨m, hm, rfl⟩
  have hfound' : after? (m ++ behind) = some behind' := h.2 ⟨m', hm', heq⟩
  obtain rfl := Option.some.inj (hfound.symm.trans hfound')
  exact List.append_cancel_right heq

/-- No text opens with two signatures. -/
theorem prefixFree_signature : PrefixFree Signature :=
  prefixFree_of afterSignature?_eq_some_iff

/-- No text opens with two declarations of the help function. -/
theorem prefixFree_helpDeclaration : PrefixFree HelpDeclaration :=
  prefixFree_of afterHelpDeclaration?_eq_some_iff

/-- No text opens with two calls of the help function. -/
theorem prefixFree_helpCall : PrefixFree HelpCall :=
  prefixFree_of dropPrefix?_helpCall

instance (bounded : Bool) (previous : Option Char) (s : List Char) :
    Decidable (Begins bounded Signature previous s) :=
  decidable_of_iff _ (begins_iff afterSignature?_eq_some_iff bounded previous s).symm

instance (bounded : Bool) (previous : Option Char) (s : List Char) :
    Decidable (Begins bounded HelpDeclaration previous s) :=
  decidable_of_iff _ (begins_iff afterHelpDeclaration?_eq_some_iff bounded previous s).symm

instance (bounded : Bool) (previous : Option Char) (s : List Char) :
    Decidable (Begins bounded HelpCall previous s) :=
  decidable_of_iff _ (begins_iff dropPrefix?_helpCall bounded previous s).symm

instance (bounded : Bool) (r : List Char) (previous : Option Char) (s : List Char) :
    Decidable (Begins bounded (· = r) previous s) :=
  decidable_of_iff ((bounded = true → atWordStart previous = true) ∧ r <+: s) (by simp [Begins])

/-! ## Recognisers -/

/-- A recogniser that reads a pattern at the start of a word and answers with one text recognises
the pattern. -/
theorem recognises_of {L : Pattern} {after? : List Char → Option (List Char)} {r : List Char}
    {recognise : Recogniser} (hnonempty : ∀ x, L x → x ≠ [])
    (h : ∀ {s rest}, after? s = some rest ↔ ∃ m, L m ∧ s = m ++ rest)
    (hrecognise : ∀ previous s, recognise previous s =
      if atWordStart previous then (after? s).map fun rest => (r, rest) else none) :
    Recognises recognise L r := by
  refine ⟨hnonempty, ?_, ?_⟩
  · intro previous s replacement rest hsome
    rw [hrecognise] at hsome
    split at hsome
    · rename_i hstart
      obtain ⟨rest', hafter, heq⟩ := Option.map_eq_some_iff.1 hsome
      obtain ⟨rfl, rfl⟩ := Prod.mk.inj heq
      exact ⟨hstart, rfl, h.1 hafter⟩
    · cases hsome
  · rintro previous s hnone hbegins
    obtain ⟨hstart, hsome⟩ := (begins_iff h true previous s).1 hbegins
    rw [hrecognise, if_pos (hstart rfl), Option.map_eq_none_iff] at hnone
    rw [hnone] at hsome
    cases hsome

/-- Signatures are recognised, and replaced by the canonical one. -/
theorem recognises_signature (function : List Char) :
    Recognises (recogniseSignature function) Signature (signature function) := by
  refine recognises_of ?_ afterSignature?_eq_some_iff fun _ _ => rfl
  rintro _ ⟨⟩
  simp

/-- Declarations of the help function are recognised, and replaced by a plain one. -/
theorem recognises_helpDeclaration (function : List Char) :
    Recognises (recogniseHelpDeclaration function) HelpDeclaration
      (['v', 'o', 'i', 'd', ' '] ++ function ++ ['(', ')']) := by
  refine recognises_of ?_ afterHelpDeclaration?_eq_some_iff fun _ _ => rfl
  intro m hm
  cases hm with
  | mk => simp

/-- Calls of the help function are recognised, and replaced by calls of the new name. -/
theorem recognises_helpCall (function : List Char) :
    Recognises (recogniseHelpCall function) HelpCall (function ++ ['(']) := by
  refine recognises_of ?_ dropPrefix?_helpCall fun previous s => ?_
  · rintro _ ⟨_⟩
    simp
  · unfold recogniseHelpCall
    split
    · cases dropPrefix? helpName s with
      | none => rfl
      | some behind => exact (Option.map_eq_bind ..).symm
    · rfl

/-! ## What matches are made of -/

/-- The characters of a signature. -/
def SignatureLetter (c : Char) : Prop :=
  isSpace c = true ∨ c ∈ ['i', 'n', 't', 'm', 'a', '(', 'r', 'g', 'c', ',', 'h', '*', 'v', '[', ']', ')']

instance : DecidablePred SignatureLetter := fun _ => inferInstanceAs (Decidable (_ ∨ _))

/-- The characters of a call of the help function. -/
def HelpCallLetter (c : Char) : Prop :=
  isSpace c = true ∨ c ∈ helpName ++ ['(']

instance : DecidablePred HelpCallLetter := fun _ => inferInstanceAs (Decidable (_ ∨ _))

section Letters

variable {P : Char → Prop} (hspace : ∀ c, isSpace c = true → P c)
include hspace

/-- White space has only letters of a class that white space belongs to. -/
theorem Spaces.all {w : List Char} (h : Spaces w) : ∀ c ∈ w, P c :=
  fun c hc => hspace c (h c hc)

/-- Stars have only letters of a class that stars and white space belong to. -/
theorem Stars.all (hstar : P '*') {stars : List Char} (h : Stars stars) : ∀ c ∈ stars, P c := by
  induction h with
  | one hw =>
      rw [List.forall_mem_append, List.forall_mem_singleton]
      exact ⟨hw.all hspace, hstar⟩
  | more hw _ ih =>
      rw [List.forall_mem_append, List.forall_mem_cons]
      exact ⟨hw.all hspace, hstar, ih⟩

/-- Brackets have only letters of a class that brackets and white space belong to. -/
theorem Brackets.all (hopen : P '[') (hclose : P ']') {brackets : List Char}
    (h : Brackets brackets) : ∀ c ∈ brackets, P c := by
  cases h with
  | none => simp
  | pair hv hw =>
      rw [List.forall_mem_cons, List.forall_mem_append, List.forall_mem_cons]
      exact ⟨hopen, hv.all hspace, hclose, hw.all hspace⟩

end Letters

/-- A signature begins with `i`, ends with a closing parenthesis and is made of its letters. -/
theorem framed_signature : Framed Signature 'i' ')' SignatureLetter := by
  refine ⟨?_, ?_, ?_⟩
  · rintro _ ⟨⟩
    rfl
  · rintro _ ⟨⟩
    simp [List.getLast?_append, List.getLast?_cons]
  · rintro _ ⟨ha, -, hb, hc, hd, -, he, hf, hstars, hg, hh, hbrackets⟩
    have hspace : ∀ c, isSpace c = true → SignatureLetter c := fun _ => Or.inl
    have hsigns : ∀ c ∈ ['i', 'n', 't', 'm', 'a', '(', 'r', 'g', 'c', ',', 'h', 'v', ')'],
        SignatureLetter c := by simp [SignatureLetter]
    have hstars' := hstars.all hspace (by decide)
    have hbrackets' := hbrackets.all hspace (by decide) (by decide)
    simp only [List.forall_mem_cons, List.forall_mem_append] at hsigns ⊢
    simp +contextual only [hsigns, ha.all hspace, hb.all hspace, hc.all hspace, hd.all hspace,
      he.all hspace, hf.all hspace, hstars', hg.all hspace, hh.all hspace, hbrackets',
      implies_true, and_true]

/-- A call of the help function begins with `p`, ends with an opening parenthesis and is made of its
letters. -/
theorem framed_helpCall : Framed HelpCall 'p' '(' HelpCallLetter := by
  refine ⟨?_, ?_, ?_⟩
  · rintro _ ⟨_⟩
    rfl
  · rintro _ ⟨_⟩
    simp
  · rintro _ ⟨ha⟩ c hmem
    rw [List.append_assoc, List.mem_append, List.mem_append] at hmem
    rcases hmem with hmem | hmem | hmem
    · exact Or.inr (List.mem_append_left _ hmem)
    · exact Or.inl (ha c hmem)
    · exact Or.inr (List.mem_append_right _ hmem)

/-- The type in a declaration has the letters of `static` and `void`, and white space. -/
theorem HelpType.notMem {front : List Char} (h : HelpType front) {c : Char}
    (hc : isSpace c = false) (hletters : c ∉ ['s', 't', 'a', 'i', 'c', 'v', 'o', 'd']) :
    c ∉ front := by
  simp only [List.mem_cons, List.not_mem_nil, or_false, not_or] at hletters
  cases h with
  | plain ha _ => simp [hletters, ha.notMem hc]
  | static hz _ ha _ => simp [hletters, hz.notMem hc, ha.notMem hc]

/-- A declaration of the help function ends with a closing parenthesis. -/
theorem HelpDeclaration.getLast {m : List Char} (h : HelpDeclaration m) : m.getLast? = some ')' := by
  cases h with
  | mk => simp [List.getLast?_append]

/-! ## Signatures in signatures -/

/-- Two runs of characters of a class that open one text are the same run, if a character outside
the class stands behind each. -/
theorem eq_of_runs {p : Char → Bool} {v w s t : List Char} {c d : Char} (hv : ∀ x ∈ v, p x = true)
    (hw : ∀ x ∈ w, p x = true) (hc : p c = false) (hd : p d = false)
    (h : v ++ c :: s = w ++ d :: t) : v = w ∧ c = d ∧ s = t := by
  have hrun := congrArg (List.takeWhile p) h
  have hrest := congrArg (List.dropWhile p) h
  rw [List.takeWhile_append_of_pos hv, List.takeWhile_append_of_pos hw,
    List.takeWhile_cons_of_neg (by simp [hc]), List.takeWhile_cons_of_neg (by simp [hd]),
    List.append_nil, List.append_nil] at hrun
  rw [List.dropWhile_append_of_pos hv, List.dropWhile_append_of_pos hw,
    List.dropWhile_cons_of_neg (by simp [hc]), List.dropWhile_cons_of_neg (by simp [hd])] at hrest
  exact ⟨hrun, List.cons.inj hrest⟩

/-- Behind the white space at the beginning of a text stands one character. -/
theorem eq_of_spaces {v w s t : List Char} {c d : Char} (hv : Spaces v) (hw : Spaces w)
    (hc : isSpace c = false) (hd : isSpace d = false) (h : v ++ c :: s = w ++ d :: t) : c = d :=
  (eq_of_runs hv hw hc hd h).2.1

/-- A text that begins with a signature begins with `int`, white space, `main` and a parenthesis. -/
theorem Signature.front {x s : List Char} (hx : Signature x) (h : x <+: s) :
    ∃ a b rest, Spaces a ∧ a ≠ [] ∧ Spaces b ∧
      s = 'i' :: 'n' :: 't' :: (a ++ 'm' :: 'a' :: 'i' :: 'n' :: (b ++ '(' :: rest)) := by
  obtain ⟨rest, rfl⟩ := h
  cases hx with
  | mk ha hane hb =>
      simp only [List.cons_append, List.append_assoc]
      exact ⟨_, _, _, ha, hane, hb, rfl⟩

/-- A place of a character lies behind a front without it. -/
theorem exists_behind {front rest a w : List Char} {c : Char} (h : front ++ rest = a ++ c :: w)
    (hc : c ∉ front) : ∃ a', a = front ++ a' ∧ rest = a' ++ c :: w := by
  rcases List.append_eq_append_iff.1 h with ⟨a', ha, hrest⟩ | ⟨b, hfront, hw⟩
  · exact ⟨a', ha, hrest⟩
  · cases b with
    | nil => exact ⟨[], by simpa using hfront.symm, by simpa using hw.symm⟩
    | cons d b =>
        obtain ⟨rfl, -⟩ := List.cons.inj hw
        exact absurd (by simp [hfront]) hc

/-- A signature cut in front of each `i` in it. -/
theorem Signature.parts {m : List Char} (h : Signature m) :
    ∃ a b c d e ending, Spaces a ∧ Spaces b ∧ Spaces c ∧ Spaces d ∧ Spaces e ∧
      'i' ∉ 'n' :: 't' :: (d ++ 'a' :: 'r' :: 'g' :: 'c' :: (e ++ ',' :: ending)) ∧
      m = 'i' :: ('n' :: 't' :: (a ++ ['m', 'a']) ++ 'i' :: ('n' :: (b ++ '(' :: c) ++
        'i' :: 'n' :: 't' :: (d ++ 'a' :: 'r' :: 'g' :: 'c' :: (e ++ ',' :: ending)))) := by
  obtain ⟨ha, -, hb, hc, hd, -, he, hf, hstars, hg, hh, hbrackets⟩ := h
  have hspace : ∀ c, isSpace c = true → c ≠ 'i' := by
    rintro c hc rfl
    cases hc
  have hnot : ∀ {w : List Char}, (∀ c ∈ w, c ≠ 'i') → 'i' ∉ w := fun h hmem => h _ hmem rfl
  refine ⟨_, _, _, _, _, _, ha, hb, hc, hd, he, ?_, by
    simp only [List.cons_append, List.append_assoc, List.nil_append]; rfl⟩
  simp [hnot (hd.all hspace), hnot (he.all hspace), hnot (hf.all hspace),
    hnot (hstars.all hspace (by decide)), hnot (hg.all hspace), hnot (hh.all hspace),
    hnot (hbrackets.all hspace (by decide) (by decide))]

/-- The second `i` of a signature is followed by `n` and, behind white space, a parenthesis; the
third one by `nt` and, behind white space, the count of the arguments and a comma. -/
theorem Signature.behind {front w : List Char} (h : Signature (front ++ 'i' :: w)) (hne : front ≠ []) :
    (∃ b rest, Spaces b ∧ w = 'n' :: (b ++ '(' :: rest)) ∨
      ∃ d e rest, Spaces d ∧ Spaces e ∧
        w = 'n' :: 't' :: (d ++ 'a' :: 'r' :: 'g' :: 'c' :: (e ++ ',' :: rest)) := by
  obtain ⟨a, b, c, d, e, ending, ha, hb, hc, hd, he, hending, hparts⟩ := h.parts
  have hi : isSpace 'i' = false := by decide
  obtain ⟨j, front, rfl⟩ := List.exists_cons_of_ne_nil hne
  rw [List.cons_append (a := j)] at hparts
  obtain ⟨front₁, -, hsecond⟩ := exists_behind (List.cons.inj hparts).2.symm (by simp [ha.notMem hi])
  cases front₁ with
  | nil =>
      have hw := (List.cons.inj hsecond).2
      simp only [List.cons_append, List.append_assoc] at hw
      exact Or.inl ⟨b, _, hb, hw.symm⟩
  | cons k front₁ =>
      rw [List.cons_append (a := k)] at hsecond
      obtain ⟨front₂, -, hthird⟩ :=
        exists_behind (List.cons.inj hsecond).2 (by simp [hb.notMem hi, hc.notMem hi])
      cases front₂ with
      | nil => exact Or.inr ⟨d, e, ending, hd, he, (List.cons.inj hthird).2.symm⟩
      | cons l front₂ =>
          rw [List.cons_append (a := l)] at hthird
          exact absurd (by rw [(List.cons.inj hthird).2]; simp) hending

/-- No signature begins further on in a signature. -/
theorem lone_signature : Lone Signature := by
  intro front w hmatch hfront hw s x hx hopens
  obtain ⟨v, b, rest, hv, -, -, hstart⟩ := hx.front hopens
  obtain ⟨i, w, rfl⟩ := List.exists_cons_of_ne_nil hw
  obtain rfl : i = 'i' := (List.cons.inj hstart).1
  rcases hmatch.behind hfront with ⟨b, rest, hb, rfl⟩ | ⟨d, e, rest, hd, -, rfl⟩
  · simp only [List.cons_append, List.append_assoc, List.cons.injEq, true_and] at hstart
    exact absurd (eq_of_spaces hb spaces_nil (by decide) (by decide) hstart) (by decide)
  · simp only [List.cons_append, List.append_assoc, List.cons.injEq, true_and] at hstart
    exact absurd (eq_of_spaces hd hv (by decide) (by decide) hstart) (by decide)

/-! ## Calls in calls -/

/-- No call of the help function begins further on in one: behind the second `p` of its name stands
no letter. -/
theorem lone_helpCall : Lone HelpCall := by
  intro front w hmatch hfront hw s x hx hopens
  obtain ⟨rest, hstart⟩ := hopens
  obtain ⟨i, w, rfl⟩ := List.exists_cons_of_ne_nil hw
  obtain ⟨j, front, rfl⟩ := List.exists_cons_of_ne_nil hfront
  have hparts : ∃ a, Spaces a ∧ j :: front ++ i :: w =
      'p' :: (['r', 'i', 'n', 't', '_', 'h', 'e', 'l'] ++ 'p' :: (a ++ ['('])) := by
    generalize j :: front ++ i :: w = m at hmatch
    cases hmatch with
    | mk ha => exact ⟨_, ha, rfl⟩
  obtain ⟨a, ha, hparts⟩ := hparts
  cases hx with
  | @mk a' ha' =>
      obtain rfl : 'p' = i := (List.cons.inj hstart).1
      obtain ⟨front₁, -, hsecond⟩ := exists_behind (List.cons.inj hparts).2.symm (by decide)
      cases front₁ with
      | nil =>
          obtain rfl := (List.cons.inj hsecond).2
          have hletter : a ++ '(' :: s =
              [] ++ 'r' :: (['i', 'n', 't', '_', 'h', 'e', 'l', 'p'] ++ a' ++ '(' :: rest) := by
            simpa [helpName] using hstart.symm
          exact absurd (eq_of_spaces ha spaces_nil (by decide) (by decide) hletter) (by decide)
      | cons k front₁ =>
          have hp : 'p' ∈ a ++ ['('] := by
            rw [(List.cons.inj hsecond).2]
            simp
          simp [ha.notMem (show isSpace 'p' = false by decide)] at hp

end Vendoring.Rule
