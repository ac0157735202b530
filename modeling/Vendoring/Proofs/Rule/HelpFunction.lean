import Vendoring.Proofs.Rule.EntryPoint

/-!
# The rule for the help function

The rule makes two passes, and every declaration looks like a call behind its type. So the second
pass meets the calls that the first one left, and once more what it wrote: it is one pass in which
the name in a declaration is spelled by the second pass alone (`substituted_helpPasses`). For an
identifier other than the old name that changes nothing (`helpFunction_renamed`). For other names a
declaration and its calls may end up with different ones: the exact condition is in
`helpFunction_respelled`.
-/

namespace Vendoring.Rule

open Text

/-- A call of a function, up to its parenthesis. -/
def callOf (function : List Char) : List Char :=
  function ++ ['(']

/-- The declaration of a function that is called like this. -/
def declarationOf (call : List Char) : List Char :=
  ['v', 'o', 'i', 'd', ' '] ++ (call ++ [')'])

/-- What the pass over the calls makes of a call of the new function. -/
def respelled (function : List Char) : List Char :=
  substitute (recogniseHelpCall function) none (callOf function)

/-- The two passes of the rule, over the declarations and over the calls. -/
def helpPasses (function : List Char) (previous : Option Char) (s : List Char) : List Char :=
  substitute (recogniseHelpCall function) previous
    (substitute (recogniseHelpDeclaration function) previous s)

/-- A declaration of the help function becomes one of a function called like `declared`, and a call
becomes `called`. -/
def helpReplacement (declared called : List Char) : Replacement := fun previous m _ r =>
  atWordStart previous = true ∧
    (HelpDeclaration m ∧ r = declarationOf declared ∨ HelpCall m ∧ r = called)

/-- A call is not empty. -/
theorem callOf_ne_nil (function : List Char) : callOf function ≠ [] := by
  simp [callOf]

/-- A call ends with its parenthesis. -/
theorem getLast?_callOf (function : List Char) : (callOf function).getLast? = some '(' :=
  List.getLast?_concat

/-! ## Declarations and calls -/

/-- White space is part of no word. -/
theorem isWord_of_isSpace {c : Char} (h : isSpace c = true) : isWord c = false := by
  have hall : ∀ n ∈ [9, 10, 11, 12, 13, 0x20, 0x85, 0xa0, 0x1680, 0x2000, 0x2001, 0x2002, 0x2003,
      0x2004, 0x2005, 0x2006, 0x2007, 0x2008, 0x2009, 0x200a, 0x2028, 0x2029, 0x202f, 0x205f, 0x3000],
      inRanges wordCharacters.ranges n = false := by
    decide +kernel
  refine hall c.toNat ?_
  simp only [isSpace, Bool.or_eq_true, Bool.and_eq_true, decide_eq_true_eq, beq_iff_eq] at h
  simp only [List.mem_cons, List.not_mem_nil, or_false]
  omega

/-- A call of the help function is not empty. -/
theorem HelpCall.ne_nil {m : List Char} (h : HelpCall m) : m ≠ [] :=
  framed_helpCall.ne_nil h

/-- A call of the help function has no other letters than its own. -/
theorem HelpCall.notMem {m : List Char} (h : HelpCall m) {c : Char} (hc : ¬ HelpCallLetter c) : c ∉ m :=
  fun hmem => hc (framed_helpCall.letters m h c hmem)

/-- A declaration begins with a letter that no call has. -/
theorem HelpDeclaration.exists_cons {m : List Char} (h : HelpDeclaration m) :
    ∃ c rest, m = c :: rest ∧ ¬ HelpCallLetter c := by
  cases h with
  | mk hfront _ _ =>
      cases hfront with
      | plain => exact ⟨'v', _, rfl, by decide⟩
      | static => exact ⟨'s', _, rfl, by decide⟩

/-- A declaration is not empty. -/
theorem HelpDeclaration.ne_nil {m : List Char} (h : HelpDeclaration m) : m ≠ [] := by
  obtain ⟨c, rest, rfl, -⟩ := h.exists_cons
  simp

/-- A text does not open with a declaration and with a call. -/
theorem HelpDeclaration.not_call {m m' s s' : List Char} (h : HelpDeclaration m) (h' : HelpCall m') :
    m ++ s ≠ m' ++ s' := by
  intro heq
  obtain ⟨c, rest, rfl, hc⟩ := h.exists_cons
  obtain ⟨d, rest', rfl⟩ := List.exists_cons_of_ne_nil h'.ne_nil
  obtain rfl := (List.cons.inj heq).1
  exact h'.notMem hc (by simp)

/-- No declaration begins in a call. -/
theorem HelpCall.barren {m : List Char} (h : HelpCall m) : Barren HelpDeclaration m := by
  intro w hw hne s x hx hopens
  obtain ⟨c, rest, rfl, hc⟩ := hx.exists_cons
  obtain ⟨d, w, rfl⟩ := List.exists_cons_of_ne_nil hne
  obtain ⟨rfl, -⟩ := List.cons_prefix_cons.1 hopens
  exact h.notMem hc (hw.subset (by simp))

/-- At a place of a text at most one declaration or call is replaced, and in one way. -/
theorem sharp_helpReplacement (declared called : List Char) :
    Sharp (helpReplacement declared called) := by
  constructor
  · intro previous m behind r hm
    rcases hm.2 with ⟨hdeclaration, -⟩ | ⟨hcall, -⟩
    · exact hdeclaration.ne_nil
    · exact hcall.ne_nil
  · intro previous m behind r m' behind' r' hm hm' heq
    rcases hm.2 with ⟨h, rfl⟩ | ⟨h, rfl⟩ <;> rcases hm'.2 with ⟨h', rfl⟩ | ⟨h', rfl⟩
    · exact ⟨prefixFree_helpDeclaration m m' behind behind' h h' heq, rfl⟩
    · exact absurd heq (h.not_call h')
    · exact absurd heq.symm (h'.not_call h)
    · exact ⟨prefixFree_helpCall m m' behind behind' h h' heq, rfl⟩

/-! ## Calls in a text -/

/-- A call in front is one of the calls of a text. -/
theorem countFrom_helpCall {m : List Char} (h : HelpCall m) {previous : Option Char}
    (hstart : atWordStart previous = true) (s : List Char) :
    countFrom true HelpCall previous (m ++ s) = 1 + countFrom true HelpCall (some '(') s := by
  have hbegins : Begins true HelpCall previous (m ++ s) :=
    ⟨fun _ => hstart, m, h, List.prefix_append m s⟩
  rw [countFrom_match h.ne_nil hbegins, framed_helpCall.getLast m h]
  intro a w hm ha hw
  exact lone_helpCall a w (hm ▸ h) ha hw s

/-- A declaration has one call in it, behind its type. -/
theorem countFrom_helpDeclaration {m : List Char} (h : HelpDeclaration m) (previous : Option Char)
    (s : List Char) :
    countFrom true HelpCall previous (m ++ s) = 1 + countFrom true HelpCall (some ')') s := by
  cases h with
  | @mk front call c hfront hcall hc =>
      have htype : Barren HelpCall front :=
        framed_helpCall.barren_of_notMem (hfront.notMem (by decide) (by decide))
      have hclosing : Barren HelpCall (c ++ [')']) :=
        framed_helpCall.barren_of_notMem (by simp [hc.notMem (show isSpace 'p' = false by decide)])
      obtain ⟨x, hx, hspace⟩ : ∃ x, front.getLast? = some x ∧ isSpace x = true := by
        cases hfront with
        | plain ha hane | static _ _ ha hane =>
            exact ⟨_, by simp [List.getLast?_append, List.getLast?_cons,
              List.getLast?_eq_some_getLast hane], ha _ (List.getLast_mem hane)⟩
      have hstart : atWordStart (front.getLast?.or previous) = true := by
        rw [hx]
        show (!isWord x) = true
        rw [isWord_of_isSpace hspace]
        rfl
      rw [List.append_assoc, List.append_assoc, countFrom_append_of_barren htype,
        countFrom_helpCall hcall hstart, countFrom_append_of_barren hclosing, List.getLast?_concat]
      rfl

/-! ## The two passes -/

section Passes

variable (function : List Char)

/-- The pass over the calls spells the name in a declaration that has been written. -/
theorem substitute_declarationOf (previous : Option Char) (s : List Char) :
    substitute (recogniseHelpCall function) previous (declarationOf (callOf function) ++ s) =
      declarationOf (respelled function) ++ substitute (recogniseHelpCall function) (some ')') s := by
  have hrecognises := recognises_helpCall function
  have hvoid : Barren HelpCall ['v', 'o', 'i', 'd', ' '] :=
    framed_helpCall.barren_of_notMem (by decide)
  have hclosing : Barren HelpCall [')'] := framed_helpCall.barren_of_notMem (by decide)
  have hlocal : ∀ w, w <:+ callOf function → w ≠ [] → ∀ m, HelpCall m → m <+: w ++ ([')'] ++ s) →
      m <+: w := by
    intro w _ _ m hm hopens
    rcases List.prefix_or_prefix_of_prefix hopens (List.prefix_append w _) with hinside | ⟨v, rfl⟩
    · exact hinside
    · cases v with
      | nil => simp
      | cons d v =>
          rw [List.prefix_append_right_inj] at hopens
          obtain ⟨rfl, -⟩ := List.cons_prefix_cons.1 hopens
          exact absurd (by simp) (hm.notMem (c := ')') (by decide))
  have hblank : recogniseHelpCall function (some ' ') (callOf function) =
      recogniseHelpCall function none (callOf function) := by
    unfold recogniseHelpCall
    rw [show atWordStart (some ' ') = atWordStart none by decide]
  calc substitute (recogniseHelpCall function) previous (declarationOf (callOf function) ++ s)
      = substitute (recogniseHelpCall function) previous
          (['v', 'o', 'i', 'd', ' '] ++ (callOf function ++ ([')'] ++ s))) := by
        rw [declarationOf, List.append_assoc, List.append_assoc]
    _ = ['v', 'o', 'i', 'd', ' '] ++
          substitute (recogniseHelpCall function) (some ' ') (callOf function ++ ([')'] ++ s)) :=
        substitute_append_of_barren hrecognises hvoid _
    _ = ['v', 'o', 'i', 'd', ' '] ++ (respelled function ++
          substitute (recogniseHelpCall function) (some '(') ([')'] ++ s)) := by
        rw [substitute_append_of_recognises hrecognises prefixFree_helpCall hlocal,
          substitute_congr hblank, getLast?_callOf]
        rfl
    _ = ['v', 'o', 'i', 'd', ' '] ++ (respelled function ++
          ([')'] ++ substitute (recogniseHelpCall function) (some ')') s)) := by
        rw [substitute_append_of_barren hrecognises hclosing]
        rfl
    _ = declarationOf (respelled function) ++
          substitute (recogniseHelpCall function) (some ')') s := by
        rw [declarationOf, List.append_assoc, List.append_assoc]

/-- Declarations are recognised, and replaced by one of the new name. -/
theorem recognises_declarationOf :
    Recognises (recogniseHelpDeclaration function) HelpDeclaration
      (declarationOf (callOf function)) := by
  have hsame : ['v', 'o', 'i', 'd', ' '] ++ function ++ ['(', ')'] =
      declarationOf (callOf function) := by
    simp [declarationOf, callOf]
  exact hsame ▸ recognises_helpDeclaration function

variable {function} {previous : Option Char}

/-- The two passes make a declaration in front one of the name that the second pass makes of the new
one. -/
theorem helpPasses_declaration {m : List Char} (hm : HelpDeclaration m)
    (hstart : atWordStart previous = true) (s : List Char) :
    helpPasses function previous (m ++ s) =
      declarationOf (respelled function) ++ helpPasses function (some ')') s := by
  have hfound : recogniseHelpDeclaration function previous (m ++ s) =
      some (declarationOf (callOf function), s) :=
    ((recognises_declarationOf function).finds prefixFree_helpDeclaration).iff.2
      ⟨m, ⟨hstart, hm, rfl⟩, rfl⟩
  unfold helpPasses
  rw [substitute_append_of_some hm.ne_nil hfound, hm.getLast, substitute_declarationOf]

/-- The two passes make a call in front one of the new name. -/
theorem helpPasses_call {m : List Char} (hm : HelpCall m) (hstart : atWordStart previous = true)
    (s : List Char) :
    helpPasses function previous (m ++ s) =
      callOf function ++ helpPasses function (some '(') s := by
  have hlast : m.getLast? = some '(' := framed_helpCall.getLast m hm
  have hfound : ∀ t, recogniseHelpCall function previous (m ++ t) = some (callOf function, t) :=
    fun t => ((recognises_helpCall function).finds prefixFree_helpCall).iff.2
      ⟨m, ⟨hstart, hm, rfl⟩, rfl⟩
  unfold helpPasses
  rw [substitute_append_of_barren (recognises_declarationOf function) hm.barren,
    substitute_append_of_some hm.ne_nil (hfound _), hlast]
  rfl

/-- The second pass finds no call where none stood. -/
theorem helpPasses_cons {c : Char} {s : List Char}
    (hdeclaration : ¬ Begins true HelpDeclaration previous (c :: s))
    (hcall : ¬ Begins true HelpCall previous (c :: s)) :
    helpPasses function previous (c :: s) = c :: helpPasses function (some c) s := by
  have hedited := (replaced_substitute (recognises_declarationOf function) (some c) s).edited
  have hsealed : Sealed HelpCall (declarationOf (callOf function)) :=
    framed_helpCall.sealed_of_barrier (show ¬ HelpCallLetter 'v' by decide) List.not_mem_nil
  have hcall' : ¬ Begins true HelpCall previous
      (c :: substitute (recogniseHelpDeclaration function) (some c) s) := by
    intro hbegins
    obtain ⟨hstart, x, hx, hopens⟩ := hbegins
    refine hcall ⟨hstart, x, hx, hedited.begins_of (fun m r hchange => ?_) hx hopens⟩
    rw [hchange.2]
    exact hsealed
  have hfirst := (recognise_eq_none_iff (recognises_declarationOf function)).2 hdeclaration
  have hsecond := (recognise_eq_none_iff (recognises_helpCall function)).2 hcall'
  unfold helpPasses
  rw [substitute_cons_of_none hfirst, substitute_cons_of_none hsecond]

/-- Both passes are one: each declaration and each call is replaced, where the name in a declaration
is spelled by the pass over the calls. -/
theorem substituted_helpPasses (function : List Char) (previous : Option Char) (s : List Char) :
    Substituted (helpReplacement (respelled function) (callOf function))
      (countFrom true HelpCall previous s) previous s (helpPasses function previous s) := by
  induction hn : s.length using Nat.strong_induction_on generalizing previous s with
  | _ n ih =>
      by_cases hdeclaration : Begins true HelpDeclaration previous s
      · obtain ⟨hstart, m, hm, s, rfl⟩ := hdeclaration
        have hpos := List.length_pos_iff.2 hm.ne_nil
        have hrest := ih s.length (by rw [List.length_append] at hn; omega) (some ')') s rfl
        rw [helpPasses_declaration hm (hstart rfl), countFrom_helpDeclaration hm, Nat.add_comm]
        exact .change ⟨hstart rfl, Or.inl ⟨hm, rfl⟩⟩ (hm.getLast ▸ hrest)
      by_cases hcall : Begins true HelpCall previous s
      · obtain ⟨hstart, m, hm, s, rfl⟩ := hcall
        have hlast := framed_helpCall.getLast m hm
        have hpos := List.length_pos_iff.2 hm.ne_nil
        have hrest := ih s.length (by rw [List.length_append] at hn; omega) (some '(') s rfl
        rw [helpPasses_call hm (hstart rfl), countFrom_helpCall hm (hstart rfl), Nat.add_comm]
        exact .change ⟨hstart rfl, Or.inr ⟨hm, rfl⟩⟩ (hlast ▸ hrest)
      cases s with
      | nil =>
          unfold helpPasses
          rw [substitute_nil, substitute_nil]
          exact .nil
      | cons c s =>
          have hrest := ih s.length (by rw [List.length_cons] at hn; omega) (some c) s rfl
          rw [helpPasses_cons hdeclaration hcall, countFrom, if_neg hcall, Nat.zero_add]
          refine .keep ?_ hrest
          intro m behind r hm heq
          have hopens : m <+: c :: s := heq ▸ List.prefix_append m behind
          rcases hm.2 with ⟨h, -⟩ | ⟨h, -⟩
          · exact hdeclaration ⟨fun _ => hm.1, m, h, hopens⟩
          · exact hcall ⟨fun _ => hm.1, m, h, hopens⟩

end Passes

/-! ## The name in a declaration -/

/-- The old name, with white space behind it or not, stays as it is. -/
theorem respelled_of_helpCall {function : List Char} (h : HelpCall (callOf function)) :
    respelled function = callOf function := by
  have hfound : recogniseHelpCall function none (callOf function ++ []) =
      some (callOf function, []) :=
    ((recognises_helpCall function).finds prefixFree_helpCall).iff.2 ⟨_, ⟨rfl, h, rfl⟩, rfl⟩
  have hpass := substitute_append_of_some h.ne_nil hfound
  rwa [List.append_nil, substitute_nil, List.append_nil] at hpass

/-- The second pass goes over the new name of a declaration, too. -/
theorem substituted_respelled (function : List Char) :
    Substituted (.ofPattern HelpCall (callOf function)) (count true HelpCall (callOf function)) none
      (callOf function) (respelled function) :=
  ((recognises_helpCall function).substitute_eq_iff prefixFree_helpCall lone_helpCall).1 rfl

/-- Any other name that a call stands in becomes longer. -/
theorem length_respelled {function : List Char} (h : ¬ HelpCall (callOf function)) :
    (callOf function).length + count true HelpCall (callOf function) ≤ (respelled function).length := by
  refine (substituted_respelled function).length_le ?_
  intro previous m behind r hm hwithin
  obtain ⟨-, hcall, rfl⟩ := hm
  refine lt_of_le_of_ne hwithin.length_le ?_
  intro hlength
  rw [hwithin.eq_of_length hlength] at hcall
  exact h hcall

/-- The second pass keeps the new name in a declaration just if its call is a call of the help
function as a whole, or has none in it. -/
theorem respelled_eq_iff {function : List Char} :
    respelled function = callOf function ↔
      HelpCall (callOf function) ∨ count true HelpCall (callOf function) = 0 := by
  constructor
  · intro heq
    by_cases hcall : HelpCall (callOf function)
    · exact Or.inl hcall
    · have hlength := length_respelled hcall
      rw [heq] at hlength
      exact Or.inr (by omega)
  · rintro (hcall | hzero)
    · exact respelled_of_helpCall hcall
    · exact (substituted_respelled function).eq_of_zero hzero

/-- No call runs into one of an identifier, if a word can begin between them. -/
theorem sealedAtWord_callOf {function : List Char} (h : Identifier function) :
    SealedAtWord HelpCall (callOf function) := by
  intro a w hmatch ha hw hlast s hopens
  obtain ⟨f, rest, rfl⟩ := List.exists_cons_of_ne_nil h.nonempty
  obtain ⟨d, w, rfl⟩ := List.exists_cons_of_ne_nil hw
  obtain ⟨rfl, -⟩ := List.cons_prefix_cons.1 hopens
  have hname : isNameChar d = true := h.chars d (by simp)
  generalize hm : a ++ d :: w = m at hmatch
  cases hmatch with
  | @mk b hb =>
      rw [List.append_assoc] at hm
      rcases List.append_eq_append_iff.1 hm with ⟨front, hfront, -⟩ | ⟨behind, -, hbehind⟩
      · -- in front of `d` stands a letter of the old name
        have hletters : ∀ c ∈ helpName, isWord c = true := List.all_eq_true.1 (by decide +kernel)
        have hword : isWord (a.getLast ha) = true :=
          hletters _ (hfront ▸ List.mem_append_left front (List.getLast_mem ha))
        rw [List.getLast?_eq_some_getLast ha] at hlast
        change (!isWord (a.getLast ha)) = true at hlast
        rw [hword] at hlast
        cases hlast
      · have hd : d ∈ b ++ ['('] := by
          rw [hbehind]
          simp
        rcases List.mem_append.1 hd with hspace | hsign
        · rw [isNameChar_of_isSpace (hb d hspace)] at hname
          cases hname
        · rw [List.mem_singleton.1 hsign] at hname
          cases hname

/-- No call begins where a word can begin in one of another identifier. -/
theorem barrenAtWords_callOf {function : List Char} (h : Identifier function)
    (hother : function ≠ helpName) : BarrenAtWords HelpCall (callOf function) := by
  intro a w hsplit hw hlast s x hx hopens
  obtain ⟨rest, hrest⟩ := hopens
  rcases List.eq_nil_or_concat a with rfl | ⟨front, c, rfl⟩
  · cases hx with
    | @mk b hb =>
        obtain rfl : callOf function = w := hsplit
        have hletters : ∀ c ∈ helpName, isNameChar c = true := List.all_eq_true.1 (by decide)
        have hopen : function ++ '(' :: s = helpName ++ (b ++ '(' :: rest) := by
          simpa [callOf] using hrest.symm
        exact hother (eq_of_parenthesis h.chars hletters hb (by decide) hopen).1
  · -- inside the name every character is part of a word
    have hfront : front.concat c <+: function := by
      refine List.prefix_of_prefix_length_le (List.prefix_append _ w)
        (hsplit ▸ List.prefix_append function ['(']) ?_
      have hlength := congrArg List.length hsplit
      have hpos := List.length_pos_iff.2 hw
      simp only [callOf, List.length_append, List.length_singleton] at hlength
      omega
    have hword := (word_of_isNameChar (h.chars c (hfront.subset (by simp)))).1
    rw [List.concat_eq_append, List.getLast?_concat] at hlast
    change (!isWord c) = true at hlast
    rw [hword] at hlast
    cases hlast

/-- A call of an identifier that is not the name of the help function has no call of the help
function in it. -/
theorem count_callOf {function : List Char} (h : Identifier function) (hother : function ≠ helpName) :
    count true HelpCall (callOf function) = 0 := by
  have hcount :=
    countFrom_append_of_barrenAtWords (barrenAtWords_callOf h hother) [] none
  rw [List.append_nil] at hcount
  exact hcount

/-! ## Declarations in a text -/

/-- A text with a declaration in front has a declaration. -/
theorem countFrom_ne_zero {previous : Option Char} {m s : List Char} (h : HelpDeclaration m)
    (hstart : atWordStart previous = true) :
    countFrom true HelpDeclaration previous (m ++ s) ≠ 0 := by
  have hbegins : Begins true HelpDeclaration previous (m ++ s) :=
    ⟨fun _ => hstart, m, h, List.prefix_append m s⟩
  obtain ⟨c, rest, rfl, -⟩ := h.exists_cons
  rw [List.cons_append] at hbegins ⊢
  rw [countFrom, if_pos hbegins]
  omega

/-- If declarations are spelled in another way, then the outcome changes by as much for each of
them, and not at all if there is none. -/
theorem Substituted.redeclare {declared called : List Char} {n : Nat} {previous : Option Char}
    {s t : List Char} (h : Substituted (helpReplacement declared called) n previous s t)
    (declared' : List Char) :
    ∃ k t', Substituted (helpReplacement declared' called) n previous s t' ∧
      (k = 0 ↔ countFrom true HelpDeclaration previous s = 0) ∧ (k = 0 → t' = t) ∧
      t'.length + k * declared.length = t.length + k * declared'.length := by
  induction h with
  | nil => exact ⟨0, [], .nil, ⟨fun _ => rfl, fun _ => rfl⟩, fun _ => rfl, by simp⟩
  | @keep n previous c s t hnone _ ih =>
      obtain ⟨k, t', hpass, hk, hsame, hlength⟩ := ih
      have hdeclaration : ¬ Begins true HelpDeclaration previous (c :: s) := by
        intro hbegins
        obtain ⟨hstart, m, hm, rest, heq⟩ := hbegins
        exact hnone m rest _ ⟨hstart rfl, Or.inl ⟨hm, rfl⟩⟩ heq.symm
      refine ⟨k, c :: t', .keep ?_ hpass, ?_, ?_, ?_⟩
      · intro m behind r hm
        rcases hm.2 with ⟨h, -⟩ | ⟨h, -⟩
        · exact hnone m behind _ ⟨hm.1, Or.inl ⟨h, rfl⟩⟩
        · exact hnone m behind _ ⟨hm.1, Or.inr ⟨h, rfl⟩⟩
      · rw [countFrom, if_neg hdeclaration, Nat.zero_add, hk]
      · intro hzero
        rw [hsame hzero]
      · rw [List.length_cons, List.length_cons]
        omega
  | @change n previous m r s t hm _ ih =>
      obtain ⟨k, t', hpass, hk, hsame, hlength⟩ := ih
      rcases hm.2 with ⟨h, rfl⟩ | ⟨h, rfl⟩
      · refine ⟨k + 1, declarationOf declared' ++ t', .change ⟨hm.1, Or.inl ⟨h, rfl⟩⟩ hpass, ?_, ?_, ?_⟩
        · exact ⟨fun hzero => by omega, fun hzero => absurd hzero (countFrom_ne_zero h hm.1)⟩
        · intro hzero
          omega
        · simp only [declarationOf, List.length_append, Nat.add_mul]
          omega
      · refine ⟨k, r ++ t', .change ⟨hm.1, Or.inr ⟨h, rfl⟩⟩ hpass, ?_, ?_, ?_⟩
        · rw [countFrom_append_of_barren h.barren, List.getLast?_eq_some_getLast h.ne_nil]
          rw [List.getLast?_eq_some_getLast h.ne_nil] at hk
          exact hk
        · intro hzero
          rw [hsame hzero]
        · rw [List.length_append, List.length_append]
          omega

section Spelling

variable {declared declared' called : List Char} {n n' : Nat} {previous : Option Char} {s t : List Char}

/-- Without a declaration in the text, it does not matter how declarations are spelled. -/
theorem Substituted.of_no_declaration (h : Substituted (helpReplacement declared called) n previous s t)
    (hnone : countFrom true HelpDeclaration previous s = 0) :
    Substituted (helpReplacement declared' called) n previous s t := by
  obtain ⟨k, t', hpass, hk, hsame, -⟩ := h.redeclare declared'
  rw [hsame (hk.2 hnone)] at hpass
  exact hpass

/-- If a longer spelling has the same outcome, then there is no declaration in the text. -/
theorem Substituted.no_declaration (h : Substituted (helpReplacement declared called) n previous s t)
    (h' : Substituted (helpReplacement declared' called) n' previous s t)
    (hlonger : declared.length < declared'.length) :
    countFrom true HelpDeclaration previous s = 0 := by
  obtain ⟨k, t', hpass, hk, -, hlength⟩ := h.redeclare declared'
  obtain rfl := (hpass.unique (sharp_helpReplacement _ _) h').2
  have hsame : k * declared.length = k * declared'.length := by omega
  refine hk.1 ?_
  by_contra hne
  have hequal := Nat.eq_of_mul_eq_mul_left (Nat.pos_of_ne_zero hne) hsame
  omega

end Spelling

/-! ## The rule -/

/-- The rule makes the two passes, one after the other. -/
theorem edit_helpFunction (naming : Naming) (s : List Char) :
    (Rule.helpFunction naming).edit s = helpPasses naming.helpFunction.toList none s := rfl

/-- The rule has the outcome of its one pass. -/
theorem edit_helpFunction_eq_iff {naming : Naming} {s t : List Char} :
    (Rule.helpFunction naming).edit s = t ↔
      Substituted (helpReplacement (respelled naming.helpFunction.toList)
        (callOf naming.helpFunction.toList)) (count true HelpCall s) none s t := by
  have hpass := substituted_helpPasses naming.helpFunction.toList none s
  rw [edit_helpFunction]
  constructor
  · intro ht
    exact ht ▸ hpass
  · intro hother
    exact (hpass.unique (sharp_helpReplacement _ _) hother).2

/-- For an identifier other than the old name, the rule leaves no call of the old one. -/
theorem count_edit_helpFunction {naming : Naming} (hname : Identifier naming.helpFunction.toList)
    (hother : naming.helpFunction.toList ≠ helpName) (s : List Char) :
    count true HelpCall ((Rule.helpFunction naming).edit s) = 0 := by
  have hreplaced := replaced_substitute (recognises_helpCall naming.helpFunction.toList) none
    (substitute (recogniseHelpDeclaration naming.helpFunction.toList) none s)
  refine hreplaced.countFrom_eq_zero_of_words (sealedAtWord_callOf hname)
    (barrenAtWords_callOf hname hother) (callOf_ne_nil _) ?_ rfl
  intro m hm
  rw [framed_helpCall.getLast m hm, getLast?_callOf]

/-- For an identifier other than the old name, each declaration and each call gets the new name, as
many as there are calls, and everything else is kept; no call of the old name is left, and nothing
changes when the rule is applied again. -/
theorem helpFunction_renamed {naming : Naming} (hname : Identifier naming.helpFunction.toList)
    (hother : naming.helpFunction ≠ "print_help") (text : String) :
    (∀ out : String, (Rule.helpFunction naming).apply text = out ↔
      Substituted (helpReplacement (callOf naming.helpFunction.toList)
        (callOf naming.helpFunction.toList)) (count true HelpCall text.toList) none text.toList
        out.toList) ∧
    count true HelpCall ((Rule.helpFunction naming).apply text).toList = 0 ∧
    (Rule.helpFunction naming).apply ((Rule.helpFunction naming).apply text) =
      (Rule.helpFunction naming).apply text := by
  have hother' : naming.helpFunction.toList ≠ helpName := fun h => hother (String.toList_inj.1 h)
  have hspelled : respelled naming.helpFunction.toList = callOf naming.helpFunction.toList :=
    respelled_eq_iff.2 (Or.inr (count_callOf hname hother'))
  have hnone := count_edit_helpFunction hname hother'
  refine ⟨?_, ?_, ?_⟩
  · intro out
    rw [apply_eq_iff, edit_helpFunction_eq_iff, hspelled]
  · rw [toList_apply]
    exact hnone text.toList
  · rw [apply_eq_iff, toList_apply]
    exact (edit_helpFunction_eq_iff.1 rfl).eq_of_zero (hnone _)

/-- A declaration with white space and a call are renamed, and a longer name is kept. -/
theorem helpFunction_renamed_sample :
    Identifier "print_help2".toList ∧ "print_help2" ≠ "print_help" ∧
    (Rule.helpFunction { helpFunction := "print_help2" }).apply
        "static\tvoid print_help ( );my_print_help();print_help\n();" =
      "void print_help2();my_print_help();print_help2();" ∧
    Substituted (helpReplacement (callOf "print_help2".toList) (callOf "print_help2".toList)) 2 none
      "static\tvoid print_help ( );my_print_help();print_help\n();".toList
      "void print_help2();my_print_help();print_help2();".toList ∧
    count true HelpCall "void print_help2();my_print_help();print_help2();".toList = 0 := by
  have hname : Identifier "print_help2".toList :=
    ⟨by decide, List.all_eq_true.1 (by decide), by decide⟩
  have hother : "print_help2" ≠ "print_help" := by decide
  obtain ⟨hpass, hnone, -⟩ := @helpFunction_renamed { helpFunction := "print_help2" } hname hother
    "static\tvoid print_help ( );my_print_help();print_help\n();"
  have happly : (Rule.helpFunction { helpFunction := "print_help2" }).apply
      "static\tvoid print_help ( );my_print_help();print_help\n();" =
      "void print_help2();my_print_help();print_help2();" := by
    decide +kernel
  have hcount : count true HelpCall
      "static\tvoid print_help ( );my_print_help();print_help\n();".toList = 2 := by
    decide +kernel
  refine ⟨hname, hother, happly, ?_, happly ▸ hnone⟩
  rw [← hcount]
  exact (hpass _).1 happly

/-- For any name, each call gets the new name, and each declaration the new name as the pass over
the calls spells it. That is the new name itself, in every declaration of the text, exactly if the
new name is the old one, or no call of the old one stands in a call of the new one, or there is no
declaration. -/
theorem helpFunction_respelled (naming : Naming) (text : String) :
    (∀ out : String, (Rule.helpFunction naming).apply text = out ↔
      Substituted (helpReplacement (respelled naming.helpFunction.toList)
        (callOf naming.helpFunction.toList)) (count true HelpCall text.toList) none text.toList
        out.toList) ∧
    (Substituted (helpReplacement (callOf naming.helpFunction.toList)
        (callOf naming.helpFunction.toList)) (count true HelpCall text.toList) none text.toList
        ((Rule.helpFunction naming).apply text).toList ↔
      HelpCall (callOf naming.helpFunction.toList) ∨
        count true HelpCall (callOf naming.helpFunction.toList) = 0 ∨
        count true HelpDeclaration text.toList = 0) := by
  refine ⟨fun out => by rw [apply_eq_iff, edit_helpFunction_eq_iff], ?_⟩
  have hpass := substituted_helpPasses naming.helpFunction.toList none text.toList
  rw [toList_apply, edit_helpFunction]
  generalize helpPasses naming.helpFunction.toList none text.toList = t at hpass ⊢
  generalize naming.helpFunction.toList = function at hpass ⊢
  by_cases hspelled : respelled function = callOf function
  · rw [hspelled] at hpass
    constructor
    · intro _
      exact (respelled_eq_iff.1 hspelled).imp_right Or.inl
    · intro _
      exact hpass
  · have hname : ¬ HelpCall (callOf function) := fun h => hspelled (respelled_of_helpCall h)
    have hcount : count true HelpCall (callOf function) ≠ 0 :=
      fun h => hspelled (respelled_eq_iff.2 (Or.inr h))
    have hlonger : (callOf function).length < (respelled function).length := by
      have hlength := length_respelled hname
      omega
    constructor
    · intro hkept
      exact Or.inr (Or.inr (hkept.no_declaration hpass hlonger))
    · intro hcases
      rcases hcases with h | h | h
      · exact absurd h hname
      · exact absurd h hcount
      · exact hpass.of_no_declaration h

/-- A qualified name that ends with the old one gets into the declarations twice. -/
example : (Rule.helpFunction { helpFunction := "ns::print_help" }).apply
      "void print_help();print_help();" =
    "void ns::ns::print_help();ns::print_help();" := by
  decide +kernel

end Vendoring.Rule
