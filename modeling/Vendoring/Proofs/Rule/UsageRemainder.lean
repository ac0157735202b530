import Vendoring.Proofs.Rule.HelpFunction
import Vendoring.Proofs.Rule.Substitutions
import Vendoring.Proofs.Rule.UsageText

/-!
# Commands that the rule for the usage text leaves

The pass over the commands takes each of them with its token and goes on behind it, so it never
looks at a token as a program. If the token of a command is the program itself, and blanks and
another token stand behind it, then the blank in front of it leads to a command, too, which the pass
leaves. With the default naming this is how commands are left, and the only way
(`usageBanner_remainder`).
-/

namespace Vendoring.Rule

open Text

/-- What the program calls itself by default. -/
def defaultProgram : List Char :=
  ({} : Naming).standaloneProgram.toList

/-- How the embedded program is called by default. -/
def defaultInvocation : List Char :=
  ({} : Naming).invocation.toList

/-- A command begins here. -/
def Calls (program s : List Char) : Prop :=
  ∃ call token behind, Command program token call behind ∧ s = call ++ behind

/-- Behind the program and blanks, another command begins. -/
def CallsItself (program s : List Char) : Prop :=
  ∃ blanks behind, blanks ≠ [] ∧ (∀ c ∈ blanks, isBlank c = true) ∧ Calls program behind ∧
    s = program ++ (blanks ++ behind)

/-- Behind a character stands what leads to a command, and the rest has the property. -/
def Led (P : List Char → Prop) (previous : Option Char) (s : List Char) : Prop :=
  ∃ lead behind, Lead previous lead ∧ P behind ∧ s = lead ++ behind

/-- Blanks and a token stand here. -/
def Argues (s : List Char) : Prop :=
  s.head?.any isBlank = true ∧ (s.dropWhile isBlank).head?.any isTokenChar = true

/-- The character leads to a command. -/
def Sign (c : Char) : Prop :=
  c ∈ ['"', '\'', '('] ∨ isSpace c = true

instance : DecidablePred Sign := fun _ => inferInstanceAs (Decidable (_ ∨ _))

/-- The program calls itself `hymod`. -/
theorem defaultProgram_eq : defaultProgram = ['h', 'y', 'm', 'o', 'd'] := rfl

/-- The embedded program is called as `ksud hymo`. -/
theorem defaultInvocation_eq :
    defaultInvocation = ['k', 's', 'u', 'd'] ++ ([' '] ++ ['h', 'y', 'm', 'o']) := by decide

/-! ## Commands -/

/-- A command is the program with blanks and a token behind it. -/
theorem calls_iff {program s : List Char} : Calls program s ↔ ∃ x, Argues x ∧ s = program ++ x := by
  constructor
  · intro h
    obtain ⟨call, token, behind, hcall, rfl⟩ := h
    have hsome := command?_eq_some_iff.2 ⟨call, hcall, rfl⟩
    unfold command? at hsome
    simp only [Option.bind_eq_bind, Option.bind_eq_some_iff, dropPrefix?_eq_some_iff] at hsome
    obtain ⟨x, hx, hsome⟩ := hsome
    split at hsome
    · rename_i hargues
      exact ⟨x, Bool.and_eq_true_iff.1 hargues, hx⟩
    · cases hsome
  · intro h
    obtain ⟨x, ⟨hblank, htoken⟩, rfl⟩ := h
    have hsome : command? program (program ++ x) = some ((x.dropWhile isBlank).takeWhile isTokenChar,
        (x.dropWhile isBlank).dropWhile isTokenChar) := by
      simp only [command?, dropPrefix?_eq_some_iff.2 rfl, Option.bind_eq_bind, Option.bind_some, hblank,
        htoken, Bool.and_self, if_true]
    obtain ⟨call, hcall, heq⟩ := command?_eq_some_iff.1 hsome
    exact ⟨call, _, _, hcall, heq⟩

/-- A character of a token leads to no command. -/
theorem not_sign_of_isTokenChar {c : Char} (h : isTokenChar c = true) : ¬ Sign c ∧ c ≠ '\\' := by
  have hsigns : ∀ d ∈ ['"', '\'', '('] ++ ['\\'], (!isTokenChar d) = true :=
    List.all_eq_true.1 (by decide +kernel)
  constructor
  · rintro (hsign | hspace)
    · have hnot := hsigns c (List.mem_append_left _ hsign)
      rw [h] at hnot
      cases hnot
    · rw [isTokenChar, isWord_of_isSpace hspace, Bool.false_or, beq_iff_eq] at h
      rw [h] at hspace
      cases hspace
  · rintro rfl
    have hnot := hsigns '\\' (by simp)
    rw [h] at hnot
    cases hnot

/-- A character of a token is no blank. -/
theorem isBlank_of_isTokenChar {c : Char} (h : isTokenChar c = true) : isBlank c = false := by
  cases hblank : isBlank c with
  | false => rfl
  | true =>
      rw [isTokenChar_of_isBlank hblank] at h
      cases h

/-- A blank leads to a command. -/
theorem sign_of_isBlank {c : Char} (h : isBlank c = true) : Sign c := by
  have hc : c = ' ' ∨ c = '\t' := by simpa [isBlank] using h
  rcases hc with rfl | rfl
  · decide
  · decide

/-- No line begins behind a character of a token. -/
theorem not_atLineStart_of_isTokenChar {c : Char} (h : isTokenChar c = true) :
    ¬ AtLineStart (some c) := by
  rintro (hnone | hfeed)
  · cases hnone
  · obtain rfl := Option.some.inj hfeed
    exact (not_sign_of_isTokenChar h).1 (by decide)

/-! ## Where a command can begin -/

section Places

variable {P : List Char → Prop} {previous : Option Char} {c : Char} {w s : List Char}

/-- What leads to a command at a place is the start of a line, a sign or an escaped line feed. -/
theorem led_cons : Led P previous (c :: s) ↔ (AtLineStart previous ∧ P (c :: s)) ∨
    (Sign c ∧ P s) ∨ (c = '\\' ∧ ∃ behind, s = 'n' :: behind ∧ P behind) := by
  constructor
  · intro h
    obtain ⟨lead, behind, hlead, hbehind, heq⟩ := h
    cases hlead with
    | lineStart hstart =>
        obtain rfl : c :: s = behind := heq
        exact Or.inl ⟨hstart, hbehind⟩
    | sign hsign =>
        obtain ⟨rfl, rfl⟩ := List.cons.inj heq
        exact Or.inr (Or.inl ⟨hsign, hbehind⟩)
    | escape =>
        obtain ⟨rfl, rfl⟩ := List.cons.inj heq
        exact Or.inr (Or.inr ⟨rfl, behind, rfl, hbehind⟩)
  · intro h
    rcases h with ⟨hstart, h⟩ | ⟨hsign, h⟩ | ⟨rfl, behind, rfl, h⟩
    · exact ⟨[], c :: s, .lineStart hstart, h, rfl⟩
    · exact ⟨[c], s, .sign hsign, h, rfl⟩
    · exact ⟨['\\', 'n'], behind, .escape, h, rfl⟩

/-- Nothing leads to a command at the end of a text. -/
theorem not_led_nil (h : ¬ P []) : ¬ Led P previous [] := by
  rintro ⟨lead, behind, -, hbehind, heq⟩
  obtain ⟨rfl, rfl⟩ := List.append_eq_nil_iff.1 heq.symm
  exact h hbehind

/-- A character of a token leads to no command: one begins with it, at the start of a line. -/
theorem led_cons_of_isTokenChar (hc : isTokenChar c = true) :
    Led P previous (c :: s) ↔ AtLineStart previous ∧ P (c :: s) := by
  rw [led_cons, or_iff_left]
  rintro (⟨hsign, -⟩ | ⟨hescape, -⟩)
  · exact (not_sign_of_isTokenChar hc).1 hsign
  · exact (not_sign_of_isTokenChar hc).2 hescape

/-- Nothing leads to a command in characters of a token that do not stand at the start of a line. -/
theorem somewhere_append_of_chars (hw : ∀ c ∈ w, isTokenChar c = true)
    (hprevious : ¬ AtLineStart previous) :
    Somewhere (Led P) previous (w ++ s) ↔ Somewhere (Led P) (w.getLast?.or previous) s := by
  induction w generalizing previous with
  | nil => rfl
  | cons c w ih =>
      obtain ⟨hc, hw⟩ := List.forall_mem_cons.1 hw
      rw [List.cons_append, somewhere_cons, led_cons_of_isTokenChar hc,
        ih hw (not_atLineStart_of_isTokenChar hc), getLast?_cons_or]
      simp [hprevious]

/-- In a run of such characters, only the start of a line leads to a command. -/
theorem somewhere_cons_append_of_chars (hw : ∀ d ∈ c :: w, isTokenChar d = true) :
    Somewhere (Led P) previous ((c :: w) ++ s) ↔
      (AtLineStart previous ∧ P ((c :: w) ++ s)) ∨ Somewhere (Led P) (c :: w).getLast? s := by
  obtain ⟨hc, hw⟩ := List.forall_mem_cons.1 hw
  rw [List.cons_append, somewhere_cons, led_cons_of_isTokenChar hc,
    somewhere_append_of_chars hw (not_atLineStart_of_isTokenChar hc), ← getLast?_cons_or c w none,
    Option.or_none]

variable (hP : ∀ {c s}, P (c :: s) → isTokenChar c = true)

include hP

/-- A character that leads to a command does so just if one begins behind it. -/
theorem led_cons_of_sign (hc : Sign c) : Led P previous (c :: s) ↔ P s := by
  rw [led_cons]
  constructor
  · rintro (⟨-, h⟩ | ⟨-, h⟩ | ⟨rfl, -⟩)
    · exact absurd hc (not_sign_of_isTokenChar (hP h)).1
    · exact h
    · exact absurd hc (by decide)
  · intro h
    exact Or.inr (Or.inl ⟨hc, h⟩)

/-- The last one of some blanks leads to what stands behind them. -/
theorem somewhere_append_of_blank (hne : w ≠ []) (hblank : ∀ c ∈ w, isBlank c = true) :
    Somewhere (Led P) previous (w ++ s) ↔ P s ∨ Somewhere (Led P) w.getLast? s := by
  induction w generalizing previous with
  | nil => exact absurd rfl hne
  | cons c w ih =>
      obtain ⟨hc, hblank⟩ := List.forall_mem_cons.1 hblank
      rw [List.cons_append, somewhere_cons, led_cons_of_sign hP (sign_of_isBlank hc)]
      cases w with
      | nil => rfl
      | cons d w =>
          have hnot : ¬ P ((d :: w) ++ s) := by
            intro h
            have hd := hP h
            rw [isTokenChar_of_isBlank (hblank d (by simp))] at hd
            cases hd
          rw [ih (by simp) hblank, or_iff_right hnot, List.getLast?_cons_cons]

/-- What leads to a command at a place leads to nothing else. -/
theorem somewhere_lead {lead : List Char} (hlead : Lead previous lead) :
    Somewhere (Led P) previous (lead ++ s) ↔
      (lead ≠ [] ∧ P s) ∨ Somewhere (Led P) (lead.getLast?.or previous) s := by
  cases hlead with
  | lineStart => simp
  | sign hc =>
      rw [List.singleton_append, somewhere_cons, led_cons_of_sign hP hc]
      simp
  | escape =>
      have hn : ∀ c ∈ ['n'], isTokenChar c = true := List.forall_mem_singleton.2 (by decide +kernel)
      have hescape : Led P previous ('\\' :: (['n'] ++ s)) ↔ P s := by
        rw [led_cons]
        constructor
        · rintro (⟨-, h⟩ | ⟨hsign, -⟩ | ⟨-, behind, heq, h⟩)
          · exact absurd rfl (not_sign_of_isTokenChar (hP h)).2
          · exact absurd hsign (by decide)
          · obtain rfl : s = behind := (List.cons.inj heq).2
            exact h
        · intro h
          exact Or.inr (Or.inr ⟨rfl, s, rfl, h⟩)
      have hstart : ¬ AtLineStart (some '\\') := by simp [AtLineStart]
      have hsplit : ['\\', 'n'] ++ s = '\\' :: (['n'] ++ s) := rfl
      rw [hsplit, somewhere_cons, hescape, somewhere_append_of_chars hn hstart]
      simp

end Places

/-! ## What the pass makes of a command -/

/-- The program is made of characters of a token. -/
theorem isTokenChar_of_mem_program : ∀ c ∈ defaultProgram, isTokenChar c = true :=
  List.all_eq_true.1 (by decide +kernel)

/-- A command begins with the first letter of the program. -/
theorem Calls.exists_cons {s : List Char} (h : Calls defaultProgram s) :
    ∃ rest, s = 'h' :: rest := by
  obtain ⟨x, -, rfl⟩ := calls_iff.1 h
  exact ⟨_, rfl⟩

/-- A command begins with a character of a token. -/
theorem isTokenChar_of_calls {c : Char} {s : List Char} (h : Calls defaultProgram (c :: s)) :
    isTokenChar c = true := by
  obtain ⟨rest, heq⟩ := h.exists_cons
  obtain ⟨rfl, -⟩ := List.cons.inj heq
  decide +kernel

/-- Blanks in front of a command end where it begins. -/
theorem dropWhile_append_of_calls {blanks s : List Char} (hblank : ∀ c ∈ blanks, isBlank c = true)
    (h : Calls defaultProgram s) : (blanks ++ s).dropWhile isBlank = s := by
  obtain ⟨rest, rfl⟩ := h.exists_cons
  refine (span_append hblank ?_).2
  intro c hc
  obtain rfl := Option.some.inj hc
  decide

/-- Behind a token that is the program, arguments make a command. -/
theorem calls_append_iff {token s : List Char} (hchars : ∀ c ∈ token, isTokenChar c = true)
    (hlongest : ∀ c, s.head? = some c → isTokenChar c = false) :
    Calls defaultProgram (token ++ s) ↔ token = defaultProgram ∧ Argues s := by
  rw [calls_iff]
  constructor
  · intro h
    obtain ⟨x, hx, heq⟩ := h
    have hend : ∀ c, x.head? = some c → isTokenChar c = false := by
      intro c hc
      have hblank := hx.1
      rw [hc] at hblank
      exact isTokenChar_of_isBlank hblank
    obtain ⟨htoken, hrest⟩ := span_append hchars hlongest
    obtain ⟨htoken', hrest'⟩ := span_append isTokenChar_of_mem_program hend
    rw [heq] at htoken hrest
    rw [← htoken, htoken', ← hrest, hrest']
    exact ⟨rfl, hx⟩
  · intro h
    obtain ⟨rfl, hs⟩ := h
    exact ⟨s, hs, rfl⟩

/-- A command whose token is a program is a command. -/
theorem CallsItself.calls {s : List Char} (h : CallsItself defaultProgram s) :
    Calls defaultProgram s := by
  obtain ⟨blanks, behind, hne, hblank, hbehind, rfl⟩ := h
  refine calls_iff.2 ⟨blanks ++ behind, ⟨?_, ?_⟩, rfl⟩
  · obtain ⟨b, blanks, rfl⟩ := List.exists_cons_of_ne_nil hne
    exact hblank b (by simp)
  · rw [dropWhile_append_of_calls hblank hbehind]
    obtain ⟨rest, rfl⟩ := hbehind.exists_cons
    exact isTokenChar_of_calls hbehind

/-- The token of a command begins another one if that stands behind the program and blanks. -/
theorem callsItself_append_iff {blanks s : List Char} (hne : blanks ≠ [])
    (hblank : ∀ c ∈ blanks, isBlank c = true) (hs : ∀ c, s.head? = some c → isBlank c = false) :
    CallsItself defaultProgram (defaultProgram ++ (blanks ++ s)) ↔ Calls defaultProgram s := by
  constructor
  · intro h
    obtain ⟨blanks', behind, hne', hblank', hbehind, heq⟩ := h
    have hrest := dropWhile_append_of_calls hblank' hbehind
    rw [← List.append_cancel_left heq, (span_append hblank hs).2] at hrest
    rwa [hrest]
  · intro h
    exact ⟨blanks, s, hne, hblank, h, rfl⟩

/-- No line begins behind blanks. -/
theorem not_atLineStart_of_blank {blanks : List Char} (hne : blanks ≠ [])
    (hblank : ∀ c ∈ blanks, isBlank c = true) : ¬ AtLineStart blanks.getLast? := by
  rw [List.getLast?_eq_some_getLast hne]
  rintro (hnone | hfeed)
  · cases hnone
  · have hlast := hblank _ (List.getLast_mem hne)
    rw [Option.some.inj hfeed] at hlast
    cases hlast

/-- The start of a line leads to a command, or what leads to it is not empty. -/
theorem Lead.ne_nil_or {previous : Option Char} {lead : List Char} (h : Lead previous lead) :
    lead ≠ [] ∨ AtLineStart (lead.getLast?.or previous) := by
  cases h with
  | lineStart hstart => exact Or.inr hstart
  | sign => exact Or.inl (by simp)
  | escape => exact Or.inl (by simp)

section Pieces

variable {previous : Option Char} {lead blanks token s : List Char}

/-- Nothing leads to a command in a token behind blanks. -/
theorem somewhere_token {P : List Char → Prop} (hne : blanks ≠ [])
    (hblank : ∀ c ∈ blanks, isBlank c = true) (htoken : token ≠ [])
    (hchars : ∀ c ∈ token, isTokenChar c = true) :
    Somewhere (Led P) blanks.getLast? (token ++ s) ↔ Somewhere (Led P) token.getLast? s := by
  rw [somewhere_append_of_chars hchars (not_atLineStart_of_blank hne hblank),
    List.getLast?_eq_some_getLast htoken, Option.some_or]

/-- In a command with what leads to it, another one that calls itself begins only with the token, or
the command itself does. -/
theorem somewhere_command (hlead : Lead previous lead) (hne : blanks ≠ [])
    (hblank : ∀ c ∈ blanks, isBlank c = true) (htoken : token ≠ [])
    (hchars : ∀ c ∈ token, isTokenChar c = true) :
    Somewhere (Led (CallsItself defaultProgram)) previous
        (lead ++ (defaultProgram ++ (blanks ++ (token ++ s)))) ↔
      Calls defaultProgram (token ++ s) ∨
        Somewhere (Led (CallsItself defaultProgram)) token.getLast? s := by
  have hfirst : ∀ {c s}, CallsItself defaultProgram (c :: s) → isTokenChar c = true :=
    fun h => isTokenChar_of_calls h.calls
  have hhead : ∀ c, (token ++ s).head? = some c → isBlank c = false := by
    obtain ⟨c, token, rfl⟩ := List.exists_cons_of_ne_nil htoken
    simpa using isBlank_of_isTokenChar (hchars c (by simp))
  have hprogram : ∀ previous s, Somewhere (Led (CallsItself defaultProgram)) previous
      (defaultProgram ++ s) ↔ (AtLineStart previous ∧ CallsItself defaultProgram (defaultProgram ++ s)) ∨
        Somewhere (Led (CallsItself defaultProgram)) (some 'd') s :=
    fun _ _ => somewhere_cons_append_of_chars isTokenChar_of_mem_program
  rw [somewhere_lead hfirst hlead, hprogram, somewhere_append_of_blank hfirst hne hblank,
    somewhere_token hne hblank htoken hchars, callsItself_append_iff hne hblank hhead]
  constructor
  · rintro (⟨-, h⟩ | ⟨-, h⟩ | h | h)
    · exact Or.inl h
    · exact Or.inl h
    · exact Or.inl h.calls
    · exact Or.inr h
  · rintro (h | h)
    · exact hlead.ne_nil_or.elim (fun hne => Or.inl ⟨hne, h⟩) fun hstart =>
        Or.inr (Or.inl ⟨hstart, h⟩)
    · exact Or.inr (Or.inr (Or.inr h))

/-- In what the pass makes of a command with what leads to it, another command begins only with the
token. -/
theorem somewhere_embedded (hlead : Lead previous lead) (htoken : token ≠ [])
    (hchars : ∀ c ∈ token, isTokenChar c = true) :
    Somewhere (Led (Calls defaultProgram)) previous
        (lead ++ (defaultInvocation ++ ([' '] ++ (token ++ s)))) ↔
      Calls defaultProgram (token ++ s) ∨
        Somewhere (Led (Calls defaultProgram)) token.getLast? s := by
  have hblank : ∀ c ∈ [' '], isBlank c = true := List.forall_mem_singleton.2 (by decide)
  have hhost : ∀ c ∈ ['k', 's', 'u', 'd'], isTokenChar c = true :=
    List.all_eq_true.1 (by decide +kernel)
  have hsubcommand : ∀ c ∈ ['h', 'y', 'm', 'o'], isTokenChar c = true :=
    List.all_eq_true.1 (by decide +kernel)
  have hnot : ∀ rest, ¬ Calls defaultProgram (['k', 's', 'u', 'd'] ++ rest) ∧
      ¬ Calls defaultProgram (['h', 'y', 'm', 'o'] ++ ([' '] ++ rest)) := by
    simp [calls_iff, defaultProgram_eq]
  simp only [defaultInvocation_eq, List.append_assoc]
  rw [somewhere_lead isTokenChar_of_calls hlead, or_iff_right (fun h => (hnot _).1 h.2),
    somewhere_cons_append_of_chars hhost, or_iff_right (fun h => (hnot _).1 h.2),
    somewhere_append_of_blank isTokenChar_of_calls (by simp) hblank, or_iff_right (hnot _).2,
    somewhere_append_of_chars hsubcommand (not_atLineStart_of_blank (by simp) hblank),
    somewhere_append_of_blank isTokenChar_of_calls (by simp) hblank,
    somewhere_token (by simp) hblank htoken hchars]

end Pieces

/-! ## What the pass leaves -/

/-- The program and blanks become the invocation and one blank. -/
def Embeds (m r : List Char) : Prop :=
  (∃ w, (∀ c ∈ w, isBlank c = true) ∧ w ≠ [] ∧ m = defaultProgram ++ w) ∧ r = defaultInvocation ++ [' ']

/-- A command and its embedded form begin with the first letters of the programs. -/
theorem Embeds.exists_cons {m r : List Char} (h : Embeds m r) :
    ∃ m' r', m = 'h' :: m' ∧ r = 'k' :: r' := by
  obtain ⟨⟨w, -, -, rfl⟩, rfl⟩ := h
  exact ⟨_, _, rfl, rfl⟩

section Edits

variable {s t : List Char}

/-- The first letters of the old and the new pieces are of one class, so that of the text stays,
too. -/
theorem Edited.head_any (h : Edited Embeds s t) {p : Char → Bool} (hp : p 'h' = p 'k') :
    s.head?.any p = t.head?.any p := by
  cases h with
  | nil => rfl
  | keep => rfl
  | change hm =>
      obtain ⟨m, r, rfl, rfl⟩ := hm.exists_cons
      exact hp

/-- A token that ends in front of the edit ends behind it, too. -/
theorem Edited.head_not_isTokenChar (h : Edited Embeds s t)
    (hs : ∀ c, s.head? = some c → isTokenChar c = false) :
    ∀ c, t.head? = some c → isTokenChar c = false := by
  intro c hc
  have hhead := h.head_any (p := isTokenChar) (by decide +kernel)
  rw [hc] at hhead
  cases hfirst : s.head? with
  | none => exact (hfirst ▸ hhead).symm
  | some d => exact (hfirst ▸ hhead).symm.trans (hs d hfirst)

/-- Embedding commands keeps whether a text begins with blanks and a token. -/
theorem Edited.argues_iff (h : Edited Embeds s t) : Argues s ↔ Argues t := by
  have hbehind : (s.dropWhile isBlank).head?.any isTokenChar =
      (t.dropWhile isBlank).head?.any isTokenChar := by
    induction h with
    | nil => rfl
    | @keep c s t _ ih =>
        cases hc : isBlank c with
        | true => simpa [hc] using ih
        | false => simp [hc]
    | change hm =>
        obtain ⟨m, r, rfl, rfl⟩ := hm.exists_cons
        change isTokenChar 'h' = isTokenChar 'k'
        decide +kernel
  rw [Argues, Argues, h.head_any (by decide), hbehind]

/-- A front of the outcome stands in front of the edit, too, if no new piece begins in it. -/
theorem Edited.of_append_right {w : List Char} (hw : 'k' ∉ w) (h : Edited Embeds s (w ++ t)) :
    ∃ s', s = w ++ s' ∧ Edited Embeds s' t := by
  induction w generalizing s with
  | nil => exact ⟨s, rfl, h⟩
  | cons c w ih =>
      obtain ⟨hc, hw⟩ : 'k' ≠ c ∧ 'k' ∉ w := by simpa using hw
      generalize heq : (c :: w) ++ t = u at h
      cases h with
      | nil => cases heq
      | keep d h =>
          obtain ⟨rfl, rfl⟩ := List.cons.inj heq
          obtain ⟨s', rfl, hbehind⟩ := ih hw h
          exact ⟨s', rfl, hbehind⟩
      | change hm =>
          obtain ⟨m, r, rfl, rfl⟩ := hm.exists_cons
          exact absurd (List.cons.inj heq).1.symm hc

/-- A command that begins behind the edit at a character that stays began there in front of it. -/
theorem Edited.led_of {previous : Option Char} {c : Char} (h : Edited Embeds s t)
    (hled : Led (Calls defaultProgram) previous (c :: t)) :
    Led (Calls defaultProgram) previous (c :: s) := by
  obtain ⟨lead, _, hlead, hcalls, heq⟩ := hled
  obtain ⟨x, hx, rfl⟩ := calls_iff.1 hcalls
  have hfront : ∃ d w, lead ++ defaultProgram = d :: w ∧ 'k' ∉ w := by
    cases hlead with
    | lineStart => exact ⟨_, _, rfl, by decide⟩
    | sign => exact ⟨_, _, rfl, by decide⟩
    | escape => exact ⟨_, _, rfl, by decide⟩
  obtain ⟨d, w, hfront, hw⟩ := hfront
  rw [← List.append_assoc, hfront] at heq
  obtain ⟨rfl, rfl⟩ := List.cons.inj heq
  obtain ⟨x', rfl, hbehind⟩ := h.of_append_right hw
  refine ⟨lead, defaultProgram ++ x', hlead, calls_iff.2 ⟨x', hbehind.argues_iff.2 hx, rfl⟩, ?_⟩
  rw [← List.append_assoc, hfront, List.cons_append]

end Edits

section Pass

variable {n : Nat} {previous : Option Char} {s t : List Char}

/-- The pass over commands embeds some of them. -/
theorem Substituted.embeds
    (h : Substituted (commandReplacement defaultProgram defaultInvocation) n previous s t) :
    Edited Embeds s t := by
  rw [← (finds_command defaultProgram defaultInvocation).substitute_eq_iff.2 ⟨n, h⟩]
  exact edited_command defaultProgram defaultInvocation previous s

/-- A piece of the pass begins where a command is led to. -/
theorem opens_iff : (commandReplacement defaultProgram defaultInvocation).Opens previous s ↔
    Led (Calls defaultProgram) previous s := by
  have hprogram : ∃ c ∈ defaultProgram, isBlank c = false := ⟨'h', by decide, by decide⟩
  constructor
  · intro h
    obtain ⟨m, behind, r, hm, rfl⟩ := h
    obtain ⟨lead, call, token, hlead, hcall, rfl, -⟩ := (commandReplacement_iff hprogram).1 hm
    exact ⟨lead, call ++ behind, hlead, ⟨call, token, behind, hcall, rfl⟩, List.append_assoc ..⟩
  · intro h
    obtain ⟨lead, _, hlead, ⟨call, token, behind, hcall, rfl⟩, rfl⟩ := h
    exact ⟨lead ++ call, behind, _, (commandReplacement_iff hprogram).2
      ⟨lead, call, token, hlead, hcall, rfl, rfl⟩, (List.append_assoc ..).symm⟩

/-- Behind the pass a command begins somewhere exactly if in front of it one does that calls
itself. -/
theorem Substituted.somewhere_iff
    (h : Substituted (commandReplacement defaultProgram defaultInvocation) n previous s t) :
    Somewhere (Led (Calls defaultProgram)) previous t ↔
      Somewhere (Led (CallsItself defaultProgram)) previous s := by
  induction h with
  | nil =>
      rw [somewhere_nil, somewhere_nil]
      have hnot : ¬ Calls defaultProgram [] := by
        intro h
        obtain ⟨rest, heq⟩ := h.exists_cons
        cases heq
      exact iff_of_false (not_led_nil hnot) (not_led_nil fun h => hnot h.calls)
  | @keep n previous c s t hnone h ih =>
      -- a command that begins here behind the pass would have been replaced
      have hnot : ¬ Led (Calls defaultProgram) previous (c :: s) := by
        intro hled
        obtain ⟨m, behind, r, hm, heq⟩ := opens_iff.2 hled
        exact hnone m behind r hm heq
      have hnot' : ¬ Led (CallsItself defaultProgram) previous (c :: s) := by
        intro hled
        obtain ⟨lead, behind, hlead, hbehind, heq⟩ := hled
        exact hnot ⟨lead, behind, hlead, hbehind.calls, heq⟩
      rw [somewhere_cons, somewhere_cons, or_iff_right (fun hled => hnot (h.embeds.led_of hled)),
        or_iff_right hnot', ih]
  | @change n previous m r s t hm h ih =>
      obtain ⟨lead, call, token, hlead, hcall, rfl, rfl, -⟩ := hm
      cases hcall with
      | @mk blanks _ _ hne hblank htoken hchars hlongest =>
      -- in the piece, before and after, another command can begin with the token only
      have hlongest' := h.embeds.head_not_isTokenChar hlongest
      have hlast : (lead ++ (defaultProgram ++ (blanks ++ token))).getLast? = token.getLast? := by
        simp only [List.getLast?_append, List.getLast?_eq_some_getLast htoken, Option.some_or]
      rw [hlast] at ih
      simp only [List.append_assoc]
      rw [somewhere_embedded hlead htoken hchars, somewhere_command hlead hne hblank htoken hchars, ih,
        calls_append_iff hchars hlongest, calls_append_iff hchars hlongest', h.embeds.argues_iff]

end Pass

/-! ## The rule -/

/-- The usage line of the program does not come back with the commands. -/
theorem Edited.infix_usageLine {s t : List Char} (h : Edited Embeds s t)
    (hwithin : usageLine defaultProgram <:+: t) : usageLine defaultProgram <:+: s := by
  have hframed : Framed (· = usageLine defaultProgram) 'U' 'd' (· ∈ usageLine defaultProgram) :=
    framed_text rfl rfl
  refine h.infix_of (L := (· = usageLine defaultProgram)) ?_ ?_ rfl hwithin
  · rintro m r ⟨-, rfl⟩
    exact hframed.sealed_of_barrier (u := []) (b := 'k') (v := "sud hymo ".toList) (by decide) (by simp)
  · rintro m r ⟨-, rfl⟩
    exact hframed.barren_of_notMem (by decide)

/-- The rule rewrites the usage lines, and then the commands. -/
theorem edit_usageBanner (s : List Char) : (Rule.usageBanner {}).edit s =
    substitute (recogniseCommand defaultProgram defaultInvocation) none
      (replaceAll (usageLine defaultProgram) (embeddedUsageLine defaultInvocation) s) := rfl

/-- The first pass leaves no usage line of the program. -/
theorem not_infix_bannered (s : List Char) : ¬ usageLine defaultProgram <:+:
    replaceAll (usageLine defaultProgram) (embeddedUsageLine defaultInvocation) s := by
  have hapart : Apart 'U' [⟨"Usage: hymod", "USAGE: ksud hymo"⟩] := by
    refine ⟨?_, ?_, ?_, ?_⟩
    all_goals decide +kernel
  exact hapart.not_infix_substituteAll s (List.mem_singleton.2 rfl)

/-- A second application of the rule changes the commands that the first one has left. -/
theorem edit_edit_usageBanner (s : List Char) :
    (Rule.usageBanner {}).edit ((Rule.usageBanner {}).edit s) = (Rule.usageBanner {}).edit s ↔
      ¬ Somewhere (Led (Calls defaultProgram)) none ((Rule.usageBanner {}).edit s) := by
  have hfinds := finds_command defaultProgram defaultInvocation
  have hembeds : Edited Embeds _ ((Rule.usageBanner {}).edit s) :=
    edited_command defaultProgram defaultInvocation none _
  have hline := mt hembeds.infix_usageLine (not_infix_bannered s)
  rw [edit_usageBanner ((Rule.usageBanner {}).edit s), replaceAll_of_absent hline]
  generalize (Rule.usageBanner {}).edit s = out
  obtain ⟨n, hpass⟩ := hfinds.substituted none out
  have hplaces : Somewhere (commandReplacement defaultProgram defaultInvocation).Opens none out ↔
      Somewhere (Led (Calls defaultProgram)) none out := by
    simp only [Somewhere, opens_iff]
  rw [← hplaces]
  refine hpass.eq_iff hfinds.nonempty ?_
  intro previous m behind r hm t heq
  obtain ⟨lead, call, token, -, hcall, rfl, rfl, -⟩ := hm
  cases hcall with
  | mk =>
      simp only [List.append_assoc] at heq
      have hembedded := List.append_cancel_left heq
      rw [defaultInvocation_eq, defaultProgram_eq] at hembedded
      cases hembedded

/-- With the default naming, for any text: the rule leaves a command exactly if behind its first
pass one calls itself, and applied again it changes nothing exactly if it has left none. -/
theorem usageBanner_remainder (text : String) :
    (Somewhere (Led (Calls defaultProgram)) none ((Rule.usageBanner {}).apply text).toList ↔
      Somewhere (Led (CallsItself defaultProgram)) none
        (replaceAll (usageLine defaultProgram) (embeddedUsageLine defaultInvocation) text.toList)) ∧
    ((Rule.usageBanner {}).apply ((Rule.usageBanner {}).apply text) = (Rule.usageBanner {}).apply text ↔
      ¬ Somewhere (Led (Calls defaultProgram)) none ((Rule.usageBanner {}).apply text).toList) := by
  rw [toList_apply]
  constructor
  · obtain ⟨n, hpass⟩ := (finds_command defaultProgram defaultInvocation).substituted none
      (replaceAll (usageLine defaultProgram) (embeddedUsageLine defaultInvocation) text.toList)
    exact hpass.somewhere_iff
  · rw [apply_eq_iff, toList_apply]
    exact edit_edit_usageBanner text.toList

/-- The token of the first command is taken with it, and so are those of the next ones. -/
example : (Rule.usageBanner {}).apply "hymod hymod clean (hymod\thymod)" =
    "ksud hymo hymod clean (ksud hymo hymod)" := by
  decide +kernel

end Vendoring.Rule
