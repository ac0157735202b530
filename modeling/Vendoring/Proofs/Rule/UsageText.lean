import Vendoring.Proofs.Rule.Pass

/-!
# The rule for the usage text

The program and the invocation stand for themselves, whatever characters they have: the first pass
replaces the usage line of the program, and the second one the program in each command that is left
behind it. A command begins at the start of a line, at a sign or white space, or at an escaped line
feed, and its token is as long as it can be (`usageBanner_literal`). The start of the line is tried
first, which matters only if the program is blank (`commandReplacement_iff`).
-/

namespace Vendoring.Rule

open Text

/-- The start of a line, behind a character. -/
def AtLineStart (previous : Option Char) : Prop :=
  previous = none ∨ previous = some '\n'

/-- What leads to a command, behind a character: the start of a line, a quote, an opening
parenthesis, white space or an escaped line feed. -/
inductive Lead (previous : Option Char) : List Char → Prop
  | lineStart (h : AtLineStart previous) : Lead previous []
  | sign {c : Char} (h : c ∈ ['"', '\'', '('] ∨ isSpace c = true) : Lead previous [c]
  | escape : Lead previous ['\\', 'n']

/-- A command with its token, in front of a rest: the program, blanks and the longest token. -/
inductive Command (program : List Char) : List Char → List Char → List Char → Prop
  | mk {blanks token rest : List Char} (hne : blanks ≠ []) (hblank : ∀ c ∈ blanks, isBlank c = true)
      (htoken : token ≠ []) (hchars : ∀ c ∈ token, isTokenChar c = true)
      (hlongest : ∀ c, rest.head? = some c → isTokenChar c = false) :
      Command program token (program ++ (blanks ++ token)) rest

/-- The usage line of the program becomes that of the embedded one. -/
def lineReplacement (program invocation : List Char) : Replacement := fun _ m _ r =>
  m = usageLine program ∧ r = embeddedUsageLine invocation

/-- A command becomes the invocation and a blank in front of its token, behind what leads to it. The
start of a line leads to a command before anything that stands there does. -/
def commandReplacement (program invocation : List Char) : Replacement := fun previous m behind r =>
  ∃ lead call token, Lead previous lead ∧ Command program token call behind ∧ m = lead ++ call ∧
    r = lead ++ invocation ++ [' '] ++ token ∧
    (lead ≠ [] → AtLineStart previous → ∀ token' call' behind',
      Command program token' call' behind' → m ++ behind ≠ call' ++ behind')

/-! ## Leads -/

/-- The start of a line is the start of a text or stands behind a line feed. -/
theorem atLineStart_iff {previous : Option Char} :
    (previous.all (· == '\n')) = true ↔ AtLineStart previous := by
  cases previous <;> simp [AtLineStart]

/-- The leads that are tried are those that the text begins with. -/
theorem mem_leads_iff {previous : Option Char} {s lead behind : List Char} :
    (lead, behind) ∈ leads previous s ↔ Lead previous lead ∧ s = lead ++ behind := by
  have hsign : ∀ c : Char, (c == '"' || c == '\'' || c == '(' || isSpace c) = true ↔
      c ∈ ['"', '\'', '('] ∨ isSpace c = true := by
    intro c
    simp [or_assoc]
  unfold leads
  rw [List.mem_append, List.mem_append]
  constructor
  · intro h
    rcases h with (h | h) | h
    · split at h
      · rename_i hstart
        obtain ⟨rfl, rfl⟩ := Prod.mk.inj (List.mem_singleton.1 h)
        exact ⟨.lineStart (atLineStart_iff.1 hstart), rfl⟩
      · cases h
    · split at h
      · rename_i c rest
        split at h
        · rename_i hc
          obtain ⟨rfl, rfl⟩ := Prod.mk.inj (List.mem_singleton.1 h)
          exact ⟨.sign ((hsign c).1 hc), rfl⟩
        · cases h
      · cases h
    · split at h
      · obtain ⟨rfl, rfl⟩ := Prod.mk.inj (List.mem_singleton.1 h)
        exact ⟨.escape, rfl⟩
      · cases h
  · intro h
    obtain ⟨hlead, rfl⟩ := h
    cases hlead with
    | lineStart h =>
        rw [if_pos (atLineStart_iff.2 h)]
        exact Or.inl (Or.inl (List.mem_singleton.2 rfl))
    | @sign c h =>
        refine Or.inl (Or.inr ?_)
        simp [(hsign c).2 h]
    | escape => exact Or.inr (List.mem_singleton.2 rfl)

/-- Apart from the start of a line, one thing at most leads to a command at a place. -/
theorem Lead.eq_of_append {previous : Option Char} {lead lead' behind behind' : List Char}
    (h : Lead previous lead) (h' : Lead previous lead') (hne : lead ≠ []) (hne' : lead' ≠ [])
    (heq : lead ++ behind = lead' ++ behind') : lead = lead' := by
  have hescape : ¬ ('\\' ∈ ['"', '\'', '('] ∨ isSpace '\\' = true) := by decide
  cases h with
  | lineStart => exact absurd rfl hne
  | sign hc =>
      cases h' with
      | lineStart => exact absurd rfl hne'
      | sign => rw [(List.cons.inj heq).1]
      | escape =>
          rw [(List.cons.inj heq).1] at hc
          exact absurd hc hescape
  | escape =>
      cases h' with
      | lineStart => exact absurd rfl hne'
      | sign hc =>
          rw [← (List.cons.inj heq).1] at hc
          exact absurd hc hescape
      | escape => rfl

/-- At the start of a line the command itself is tried first. -/
theorem leads_of_atLineStart {previous : Option Char} (h : AtLineStart previous) (s : List Char) :
    ∃ others, leads previous s = ([], s) :: others := by
  unfold leads
  rw [if_pos (atLineStart_iff.2 h), List.append_assoc]
  exact ⟨_, rfl⟩

/-- What is found behind a lead is found first, unless it is found at the start of the line. -/
theorem findSome?_leads_eq_some_iff {α : Type} {find : List Char × List Char → Option α} {found : α}
    {previous : Option Char} {s : List Char} :
    (leads previous s).findSome? find = some found ↔
      ∃ lead behind, Lead previous lead ∧ s = lead ++ behind ∧ find (lead, behind) = some found ∧
        (lead ≠ [] → AtLineStart previous → find ([], s) = none) := by
  rw [List.findSome?_eq_some_iff]
  constructor
  · intro hsearch
    obtain ⟨earlier, ⟨lead, behind⟩, later, hleads, hfound, hearlier⟩ := hsearch
    have hmem : (lead, behind) ∈ leads previous s := by
      rw [hleads]
      simp
    obtain ⟨hlead, heq⟩ := mem_leads_iff.1 hmem
    refine ⟨lead, behind, hlead, heq, hfound, ?_⟩
    intro hne hstart
    obtain ⟨others, hfirst⟩ := leads_of_atLineStart hstart s
    rw [hleads] at hfirst
    cases earlier with
    | nil => exact absurd (congrArg Prod.fst (List.cons.inj hfirst).1) hne
    | cons first earlier =>
        rw [← (List.cons.inj hfirst).1]
        exact hearlier first (by simp)
  · intro hsearch
    obtain ⟨lead, behind, hlead, rfl, hfound, hfirst⟩ := hsearch
    by_cases hne : lead = []
    · subst hne
      cases hlead with
      | lineStart hstart =>
          obtain ⟨others, hothers⟩ := leads_of_atLineStart hstart behind
          exact ⟨[], ([], behind), others, hothers, hfound, by simp⟩
    obtain ⟨earlier, later, hleads, hnot⟩ :=
      List.eq_append_cons_of_mem (mem_leads_iff.2 ⟨hlead, rfl⟩)
    refine ⟨earlier, (lead, behind), later, hleads, hfound, ?_⟩
    intro (lead', behind') hmem
    obtain ⟨hlead', heq⟩ := mem_leads_iff.1 (hleads ▸ List.mem_append_left _ hmem)
    by_cases hne' : lead' = []
    · subst hne'
      cases hlead' with
      | lineStart hstart =>
          rw [List.nil_append] at heq
          exact heq ▸ hfirst hne hstart
    · obtain rfl := hlead.eq_of_append hlead' hne hne' heq
      obtain rfl := List.append_cancel_left heq
      exact absurd hmem hnot

/-! ## Commands -/

/-- Blanks are not in tokens. -/
theorem isTokenChar_of_isBlank {c : Char} (h : isBlank c = true) : isTokenChar c = false := by
  have hc : c = ' ' ∨ c = '\t' := by simpa [isBlank] using h
  rcases hc with rfl | rfl
  · decide +kernel
  · decide +kernel

/-- Commands have characters. -/
theorem Command.ne_nil {program token call rest : List Char} (h : Command program token call rest) :
    call ≠ [] := by
  cases h with
  | mk hne => simp [hne]

/-- A run of characters of a class ends in front of a rest that begins with none of them. -/
theorem span_append {p : Char → Bool} {run rest : List Char} (hrun : ∀ c ∈ run, p c = true)
    (hrest : ∀ c, rest.head? = some c → p c = false) :
    (run ++ rest).takeWhile p = run ∧ (run ++ rest).dropWhile p = rest := by
  rw [List.takeWhile_append_of_pos hrun, List.dropWhile_append_of_pos hrun]
  cases rest with
  | nil => simp
  | cons c rest => simp [hrest c rfl]

/-- A command is found exactly if the text begins with one. -/
theorem command?_eq_some_iff {program s token rest : List Char} :
    command? program s = some (token, rest) ↔
      ∃ call, Command program token call rest ∧ s = call ++ rest := by
  unfold command?
  simp only [Option.bind_eq_bind, Option.bind_eq_some_iff, dropPrefix?_eq_some_iff]
  constructor
  · intro h
    obtain ⟨behind, rfl, h⟩ := h
    split at h
    · rename_i hstart
      obtain ⟨hblank, htoken⟩ := Bool.and_eq_true_iff.1 hstart
      obtain ⟨rfl, rfl⟩ := Prod.mk.inj (Option.some.inj h)
      refine ⟨program ++ (behind.takeWhile isBlank ++ (behind.dropWhile isBlank).takeWhile isTokenChar),
        .mk ?_ (List.all_eq_true.1 List.all_takeWhile) ?_ (List.all_eq_true.1 List.all_takeWhile) ?_, ?_⟩
      · cases behind with
        | nil => cases hblank
        | cons c behind => simp [show isBlank c = true from hblank]
      · cases hbehind : behind.dropWhile isBlank with
        | nil =>
            rw [hbehind] at htoken
            cases htoken
        | cons c behind' =>
            rw [hbehind] at htoken
            simp [show isTokenChar c = true from htoken]
      · intro c hc
        have hend := List.head?_dropWhile_not isTokenChar (behind.dropWhile isBlank)
        rw [hc] at hend
        exact hend
      · simp only [List.append_assoc, List.takeWhile_append_dropWhile]
    · cases h
  · intro h
    obtain ⟨call, hcall, rfl⟩ := h
    cases hcall with
    | @mk blanks token rest hne hblank htoken hchars hlongest =>
        refine ⟨blanks ++ (token ++ rest), by simp only [List.append_assoc], ?_⟩
        obtain ⟨b, blanks, rfl⟩ := List.exists_cons_of_ne_nil hne
        obtain ⟨c, token, rfl⟩ := List.exists_cons_of_ne_nil htoken
        have hc : isTokenChar c = true := hchars c (by simp)
        have hnoblank : isBlank c = false := by
          cases hblank' : isBlank c with
          | false => rfl
          | true => rw [isTokenChar_of_isBlank hblank'] at hc; cases hc
        have hbehind : (b :: blanks ++ (c :: token ++ rest)).dropWhile isBlank = c :: token ++ rest :=
          (span_append hblank (by simpa using hnoblank)).2
        obtain ⟨htaken, hdropped⟩ := span_append hchars hlongest
        rw [hbehind, htaken, hdropped, if_pos]
        simp [hblank b (by simp), hc]

/-- A text that begins in the same way behind a lead has the characters of the lead only, up to
where the likeness goes. -/
theorem mem_of_append_eq {α : Type} {lead s t behind : List α} {b : α} (hne : lead ≠ [])
    (h : lead ++ (s ++ t) = s ++ b :: behind) : ∀ c ∈ s ++ [b], c ∈ lead := by
  induction hn : s.length using Nat.strongRecOn generalizing s with
  | ind n ih =>
      rcases List.append_eq_append_iff.1 h with ⟨s', rfl, heq⟩ | ⟨lead', rfl, heq⟩
      · have hpos := List.length_pos_iff.2 hne
        rw [List.length_append] at hn
        rw [List.append_assoc] at heq
        intro c hc
        rw [List.append_assoc] at hc
        rcases List.mem_append.1 hc with hc | hc
        · exact hc
        · exact ih s'.length (by omega) heq rfl c hc
      · have hb : b ∈ s ++ lead' := by
          cases lead' with
          | nil =>
              rw [List.append_nil] at hne ⊢
              obtain ⟨d, s, rfl⟩ := List.exists_cons_of_ne_nil hne
              rw [(List.cons.inj heq).1]
              simp
          | cons d lead' =>
              rw [(List.cons.inj heq).1]
              simp
        intro c hc
        rcases List.mem_append.1 hc with hc | hc
        · exact List.mem_append_left _ hc
        · rwa [List.mem_singleton.1 hc]

/-- A command at the start of a line does not begin with another one behind a lead, unless its
program is blank. -/
theorem Command.not_behind {program token call behind token' call' behind' lead : List Char}
    {previous : Option Char} (h : Command program token call behind)
    (h' : Command program token' call' behind') (hlead : Lead previous lead) (hne : lead ≠ [])
    (hprogram : ∃ c ∈ program, isBlank c = false) : lead ++ call' ++ behind' ≠ call ++ behind := by
  intro heq
  cases h with
  | @mk blanks token _ hblanks hblank =>
  cases h' with
  | @mk blanks' token' =>
  obtain ⟨b, blanks, rfl⟩ := List.exists_cons_of_ne_nil hblanks
  have hb : isBlank b = true := hblank b (List.mem_cons_self ..)
  have hmem := @mem_of_append_eq _ lead program (blanks' ++ (token' ++ behind'))
    (blanks ++ (token ++ behind)) b hne (by simpa using heq)
  have hbmem : b ∈ lead := hmem b (by simp)
  obtain ⟨c, hc, hcblank⟩ := hprogram
  have hcmem : c ∈ lead := hmem c (List.mem_append_left _ hc)
  cases hlead with
  | lineStart => exact hne rfl
  | sign =>
      rw [List.mem_singleton.1 hcmem, ← List.mem_singleton.1 hbmem, hb] at hcblank
      cases hcblank
  | escape =>
      have hspace : b = ' ' ∨ b = '\t' := by simpa [isBlank] using hb
      rcases hspace with rfl | rfl
      · exact absurd hbmem (by decide)
      · exact absurd hbmem (by decide)

/-- Unless the program is blank, it does not matter what is tried first. -/
theorem commandReplacement_iff {program : List Char} (hprogram : ∃ c ∈ program, isBlank c = false)
    {invocation m behind r : List Char} {previous : Option Char} :
    commandReplacement program invocation previous m behind r ↔
      ∃ lead call token, Lead previous lead ∧ Command program token call behind ∧ m = lead ++ call ∧
        r = lead ++ invocation ++ [' '] ++ token := by
  constructor
  · intro h
    obtain ⟨lead, call, token, hlead, hcall, hm, hr, -⟩ := h
    exact ⟨lead, call, token, hlead, hcall, hm, hr⟩
  · intro h
    obtain ⟨lead, call, token, hlead, hcall, rfl, hr⟩ := h
    refine ⟨lead, call, token, hlead, hcall, rfl, hr, ?_⟩
    intro hne _ token' call' behind' hcall'
    exact hcall'.not_behind hcall hlead hne hprogram

/-- The recogniser finds the commands. -/
theorem finds_command (program invocation : List Char) :
    Finds (recogniseCommand program invocation) (commandReplacement program invocation) := by
  constructor
  · intro previous m behind r hm
    obtain ⟨lead, call, token, -, hcall, rfl, -⟩ := hm
    exact List.append_ne_nil_of_right_ne_nil lead hcall.ne_nil
  intro previous s r rest
  unfold recogniseCommand
  rw [findSome?_leads_eq_some_iff]
  constructor
  · intro hsearch
    obtain ⟨lead, behind, hlead, rfl, hfound, hfirst⟩ := hsearch
    obtain ⟨⟨token, rest'⟩, hcommand, heq⟩ := Option.map_eq_some_iff.1 hfound
    obtain ⟨rfl, rfl⟩ := Prod.mk.inj heq
    obtain ⟨call, hcall, rfl⟩ := command?_eq_some_iff.1 hcommand
    refine ⟨lead ++ call, ⟨lead, call, token, hlead, hcall, rfl, expand_commandTemplate .., ?_⟩,
      (List.append_assoc ..).symm⟩
    intro hne hstart token' call' behind' hcall' heq
    have hsome := command?_eq_some_iff.2 ⟨call', hcall', (List.append_assoc ..).symm.trans heq⟩
    have hnone := hfirst hne hstart
    rw [Option.map_eq_none_iff, hsome] at hnone
    cases hnone
  · intro hpiece
    obtain ⟨_, ⟨lead, call, token, hlead, hcall, rfl, rfl, hfirst⟩, rfl⟩ := hpiece
    refine ⟨lead, call ++ rest, hlead, List.append_assoc .., ?_, ?_⟩
    · refine Option.map_eq_some_iff.2 ⟨(token, rest), command?_eq_some_iff.2 ⟨call, hcall, rfl⟩, ?_⟩
      exact Prod.ext (expand_commandTemplate ..) rfl
    · intro hne hstart
      rw [Option.map_eq_none_iff, Option.eq_none_iff_forall_not_mem]
      intro (token', behind') hsome
      obtain ⟨call', hcall', heq⟩ := command?_eq_some_iff.1 hsome
      exact hfirst hne hstart token' call' behind' hcall' heq

/-- Commands are edited between their lead and their token. -/
theorem edited_command (program invocation : List Char) (previous : Option Char) (s : List Char) :
    Edited (fun m r => (∃ w, (∀ c ∈ w, isBlank c = true) ∧ w ≠ [] ∧ m = program ++ w) ∧
        r = invocation ++ [' ']) s
      (substitute (recogniseCommand program invocation) previous s) := by
  refine edited_substitute ?_ previous s
  intro previous s replacement rest hsome
  obtain ⟨_, ⟨lead, _, token, -, hcall, rfl, rfl, -⟩, rfl⟩ := (finds_command _ _).iff.1 hsome
  cases hcall with
  | @mk w _ _ hne hw =>
      refine ⟨lead ++ ((program ++ w) ++ token), by simp only [List.append_assoc], ?_⟩
      rw [List.append_assoc lead, List.append_assoc lead]
      exact (Edited.refl _ lead).append
        ((Edited.of_change ⟨⟨w, hw, hne, rfl⟩, rfl⟩).append (Edited.refl _ token))

/-- The rule makes two passes over any text, for any naming: the usage lines become those of the
embedded program, and behind that the commands do. Everything else is kept. -/
theorem usageBanner_literal (naming : Naming) (text out : String) :
    (Rule.usageBanner naming).apply text = out ↔
      ∃ n k bannered,
        Substituted (lineReplacement naming.standaloneProgram.toList naming.invocation.toList) n none
          text.toList bannered ∧
        Substituted (commandReplacement naming.standaloneProgram.toList naming.invocation.toList) k none
          bannered out.toList := by
  have hline : usageLine naming.standaloneProgram.toList ≠ [] := by simp [usageLine]
  rw [apply_eq_iff]
  constructor
  · intro hedit
    obtain ⟨n, hbanner⟩ := (replaceAll_eq_iff hline).1 (Eq.refl (replaceAll _
      (embeddedUsageLine naming.invocation.toList) text.toList))
    obtain ⟨k, hcommand⟩ := (finds_command _ _).substitute_eq_iff.1 hedit
    exact ⟨n, k, _, hbanner, hcommand⟩
  · intro hpasses
    obtain ⟨n, k, bannered, hbanner, hcommand⟩ := hpasses
    obtain rfl := (replaceAll_eq_iff hline).2 ⟨n, hbanner⟩
    exact (finds_command _ _).substitute_eq_iff.2 ⟨k, hcommand⟩

/-- A dollar sign in the invocation and a dot in the program stand for themselves, and a program in
a path is no command. -/
example : (Rule.usageBanner
      { standaloneProgram := "h.d", hostCommand := "$1", subcommand := "$\x7b2\x7d" }).apply
      "Usage: h.d\n (h.d mount) /bin/h.d clean hxd" =
    "USAGE: $1 $\x7b2\x7d\n ($1 $\x7b2\x7d mount) /bin/h.d clean hxd" := by
  decide +kernel

end Vendoring.Rule
