import Vendoring.Stamp

/-!
# Stamps among the lines of a text

A stamp is known by its beginning, so it does not matter whether the end of its line is kept
(`isStamp_bareLine`). A text without its stamps has none (`stamps_unstamped`), and with a line of
its own on top it has exactly this one (`isStamped_stamped`): a stamped text is left as it is.
-/

namespace Vendoring

namespace Text

/-- The first line of a text runs through the first line feed. -/
theorem takeLine_of_notMem {body : List Char} (h : '\n' ∉ body) (rest : List Char) :
    takeLine (body ++ '\n' :: rest) = (body ++ ['\n'], rest) := by
  induction body with
  | nil => simp [takeLine]
  | cons c body ih =>
      rw [List.mem_cons, not_or] at h
      rw [List.cons_append, takeLine, if_neg (Ne.symm h.1), ih h.2]
      rfl

/-- Splitting a text behind a line with its line feed gives this line and the lines of the text. -/
theorem splitLines_line {body : List Char} (h : '\n' ∉ body) (rest : List Char) :
    splitLines (body ++ '\n' :: rest) = (body ++ ['\n']) :: splitLines rest := by
  have hline := takeLine_of_notMem h rest
  obtain ⟨c, s, hs⟩ : ∃ c s, body ++ '\n' :: rest = c :: s :=
    List.exists_cons_of_ne_nil (by simp)
  rw [hs] at hline ⊢
  rw [splitLines, hline]

/-- The only line of a text without line feeds is the text. -/
theorem splitLines_of_notMem {s : List Char} (h : '\n' ∉ s) (hne : s ≠ []) : splitLines s = [s] := by
  have hall : ∀ t : List Char, '\n' ∉ t → takeLine t = (t, []) := by
    intro t ht
    induction t with
    | nil => rfl
    | cons c t ih =>
        rw [List.mem_cons, not_or] at ht
        rw [takeLine, if_neg (Ne.symm ht.1), ih ht.2]
  cases s with
  | nil => exact absurd rfl hne
  | cons c s =>
      rw [splitLines, hall _ h]
      simp [splitLines]

/-- A list has no separator, or it is a piece without one, the separator and a list. -/
@[elab_as_elim]
theorem separator_induction {α : Type} {motive : List α → Prop} (separator : α) (s : List α)
    (last : ∀ s, separator ∉ s → motive s)
    (piece : ∀ body rest, separator ∉ body → motive rest → motive (body ++ separator :: rest)) :
    motive s := by
  induction hn : s.length using Nat.strongRecOn generalizing s with
  | ind n ih =>
      by_cases hmem : separator ∈ s
      · obtain ⟨body, rest, rfl, hbody⟩ := List.eq_append_cons_of_mem hmem
        have hless : rest.length < n := by
          simp only [List.length_append, List.length_cons] at hn
          omega
        exact piece body rest hbody (ih rest.length hless rest rfl)
      · exact last s hmem

/-- A text has no line feed, or it is a line with its line feed and a text. -/
@[elab_as_elim]
theorem lineFeed_induction {motive : List Char → Prop} (s : List Char)
    (last : ∀ s, '\n' ∉ s → motive s)
    (line : ∀ body rest, '\n' ∉ body → motive rest → motive (body ++ '\n' :: rest)) : motive s :=
  separator_induction '\n' s last line

/-- A text is empty, one line without a line feed, or a line with its line feed and a text. -/
@[elab_as_elim]
theorem line_induction {motive : List Char → Prop} (s : List Char) (nil : motive [])
    (last : ∀ s, s ≠ [] → '\n' ∉ s → motive s)
    (line : ∀ body rest, '\n' ∉ body → motive rest → motive (body ++ '\n' :: rest)) : motive s := by
  induction s using lineFeed_induction with
  | last s hs =>
      by_cases hnil : s = []
      · exact hnil ▸ nil
      · exact last s hnil hs
  | line body rest hbody ih => exact line body rest hbody ih

/-- The end of a line consists of a line feed and a carriage return at most. -/
theorem exists_bareLine (line : List Char) :
    ∃ ending, line = bareLine line ++ ending ∧ ∀ c ∈ ending, c = '\n' ∨ c = '\r' := by
  unfold bareLine
  split
  · rename_i rest hline
    refine ⟨['\r', '\n'], ?_, by simp⟩
    rw [← List.reverse_reverse line, hline]
    simp
  · rename_i rest _ hline
    refine ⟨['\n'], ?_, by simp⟩
    rw [← List.reverse_reverse line, hline]
    simp
  · exact ⟨[], by simp, by simp⟩

/-- What is cut off in front of a line feed is a carriage return at most. -/
theorem bareLine_append_lineFeed (body : List Char) :
    bareLine (body ++ ['\n']) = body ∨ body = bareLine (body ++ ['\n']) ++ ['\r'] := by
  unfold bareLine
  rw [List.reverse_append, List.reverse_singleton, List.singleton_append]
  split
  · rename_i rest hline
    right
    rw [← List.reverse_reverse body, (List.cons.inj hline).2, List.reverse_cons]
  · rename_i rest _ hline
    left
    rw [← (List.cons.inj hline).2, List.reverse_reverse]
  · rename_i hno
    exact absurd rfl (hno _)

/-- A line without its end has no line feed. -/
theorem notMem_of_mem_lines {s l : List Char} (h : l ∈ lines s) : '\n' ∉ l := by
  rw [lines] at h
  induction s using line_induction with
  | nil => simp [splitLines] at h
  | last s hne hs =>
      rw [splitLines_of_notMem hs hne, List.map_singleton, List.mem_singleton] at h
      obtain ⟨ending, hending, -⟩ := exists_bareLine s
      intro hmem
      refine hs ?_
      rw [hending]
      exact List.mem_append_left _ (h ▸ hmem)
  | line body rest hbody ih =>
      rw [splitLines_line hbody, List.map_cons, List.mem_cons] at h
      rcases h with rfl | h
      · rcases bareLine_append_lineFeed body with hbare | hbare
        · rwa [hbare]
        · rw [hbare, List.mem_append, not_or] at hbody
          exact hbody.1
      · exact ih h

/-- The lines of a text that is cut behind a line feed are those of its parts. -/
theorem splitLines_append (s t : List Char) :
    splitLines (s ++ '\n' :: t) = splitLines (s ++ ['\n']) ++ splitLines t := by
  induction s using lineFeed_induction with
  | last s hs =>
      rw [splitLines_line hs, splitLines_line hs]
      simp [splitLines]
  | line body rest hbody ih =>
      simp only [List.append_assoc, List.cons_append]
      rw [splitLines_line hbody, splitLines_line hbody, ih, List.cons_append]

/-- A text with characters has a line. -/
theorem splitLines_ne_nil {s : List Char} (h : s ≠ []) : splitLines s ≠ [] := by
  intro hnil
  have hflat := flatten_splitLines s
  rw [hnil] at hflat
  exact h hflat.symm

end Text

namespace Stamp

open Text

/-- Whether a text has neither line feeds nor carriage returns. -/
def OneLine (s : List Char) : Prop :=
  '\n' ∉ s ∧ '\r' ∉ s

/-- Two pieces of one line make one. -/
theorem OneLine.append {s t : List Char} (hs : OneLine s) (ht : OneLine t) : OneLine (s ++ t) := by
  constructor
  · rw [List.mem_append, not_or]
    exact ⟨hs.1, ht.1⟩
  · rw [List.mem_append, not_or]
    exact ⟨hs.2, ht.2⟩

/-- A line is a stamp exactly if it begins like one. -/
theorem isStamp_iff {beginning line : List Char} :
    isStamp beginning line = true ↔ beginning <+: line := by
  rw [isStamp, Option.isSome_iff_exists]
  constructor
  · rintro ⟨rest, hrest⟩
    exact ⟨rest, (dropPrefix?_eq_some_iff.1 hrest).symm⟩
  · rintro ⟨rest, hrest⟩
    exact ⟨rest, dropPrefix?_eq_some_iff.2 hrest.symm⟩

/-- A line begins like a stamp whether or not its end is kept. -/
theorem isStamp_bareLine {beginning : List Char} (h : OneLine beginning) (line : List Char) :
    isStamp beginning (bareLine line) = isStamp beginning line := by
  obtain ⟨ending, hline, hending⟩ := exists_bareLine line
  rw [Bool.eq_iff_iff, isStamp_iff, isStamp_iff]
  constructor
  · intro hbegins
    exact hbegins.trans ⟨ending, hline.symm⟩
  · intro hbegins
    rcases List.prefix_or_prefix_of_prefix hbegins ⟨ending, hline.symm⟩ with hbare | ⟨more, hmore⟩
    · exact hbare
    -- the beginning would reach into the end of the line
    · rw [hline, ← hmore, List.prefix_append_right_inj] at hbegins
      have hnone : more = [] := by
        rw [List.eq_nil_iff_forall_not_mem]
        intro c hc
        rcases hending c (hbegins.subset hc) with rfl | rfl
        · exact h.1 (by simp [← hmore, hc])
        · exact h.2 (by simp [← hmore, hc])
      rw [hnone, List.append_nil] at hmore
      exact hmore ▸ List.prefix_rfl

/-- The stamps of a text are the lines that begin like one. -/
theorem stamps_eq {beginning : List Char} (h : OneLine beginning) (s : List Char) :
    stamps beginning s = ((splitLines s).filter (isStamp beginning)).map bareLine := by
  have hsame : isStamp beginning ∘ bareLine = isStamp beginning := by
    funext line
    exact isStamp_bareLine h line
  rw [stamps, lines, List.filter_map, hsame]

/-- The lines of a text without its stamps are its other lines, with their ends. -/
theorem splitLines_unstamped (beginning : List Char) (s : List Char) :
    splitLines (unstamped beginning s) = (splitLines s).filter (!isStamp beginning ·) := by
  induction s using line_induction with
  | nil => simp [unstamped, splitLines]
  | last s hne hs =>
      rw [unstamped, splitLines_of_notMem hs hne]
      by_cases hstamp : isStamp beginning s = true
      · simp [hstamp, splitLines]
      · simp [hstamp, splitLines_of_notMem hs hne]
  -- the first line is taken out or stays the first one
  | line body rest hbody ih =>
      rw [unstamped] at ih
      rw [unstamped, splitLines_line hbody]
      by_cases hstamp : isStamp beginning (body ++ ['\n']) = true
      · rw [List.filter_cons_of_neg (by simp [hstamp])]
        exact ih
      · rw [List.filter_cons_of_pos (by simp [hstamp]), List.flatten_cons, List.append_assoc,
          List.singleton_append, splitLines_line hbody, ih]

/-- No line of a text without its stamps begins like a stamp. -/
theorem filter_splitLines_unstamped (beginning : List Char) (s : List Char) :
    (splitLines (unstamped beginning s)).filter (isStamp beginning) = [] := by
  rw [splitLines_unstamped, List.filter_filter, List.filter_eq_nil_iff]
  simp

/-- There is no stamp in a text whose stamps were removed. -/
theorem stamps_unstamped {beginning : List Char} (h : OneLine beginning) (s : List Char) :
    stamps beginning (unstamped beginning s) = [] := by
  rw [stamps_eq h, filter_splitLines_unstamped, List.map_nil]

/-- A line feed behind a text without line ends is what is cut off as the end of the line. -/
theorem bareLine_append {s : List Char} (h : OneLine s) :
    bareLine (s ++ ['\n']) = s ∧ dropEndWhile (· == '\n') (s ++ ['\n']) = s := by
  constructor
  · refine (bareLine_append_lineFeed s).resolve_right ?_
    intro hreturn
    refine h.2 ?_
    rw [hreturn]
    simp
  · rw [dropEndWhile_append_of _ _ _ (by simp)]
    unfold dropEndWhile
    have hdrop : s.reverse.dropWhile (· == '\n') = s.reverse := by
      cases hs : s.reverse with
      | nil => rfl
      | cons c r =>
          have hc : c ≠ '\n' := by
            rintro rfl
            exact h.1 (by rw [← List.mem_reverse, hs]; simp)
          simp [hc]
    rw [hdrop, List.reverse_reverse]

/-- Behind stamping a text the stamp is its only one. -/
theorem isStamped_stamped {beginning label : List Char} (hbeginning : OneLine beginning)
    (hlabel : OneLine label) (s : List Char) :
    isStamped beginning (beginning ++ label ++ ['\n'])
      (stamped beginning (beginning ++ label ++ ['\n']) s) = true := by
  have hline : OneLine (beginning ++ label) := hbeginning.append hlabel
  obtain ⟨hbare, hdrop⟩ := bareLine_append hline
  have hstamp : isStamp beginning (beginning ++ label ++ ['\n']) = true :=
    isStamp_iff.2 (by rw [List.append_assoc]; exact List.prefix_append _ _)
  have hstamps : stamps beginning (stamped beginning (beginning ++ label ++ ['\n']) s) =
      [beginning ++ label] := by
    rw [stamps_eq hbeginning, stamped, List.append_assoc, List.singleton_append,
      splitLines_line hline.1, List.filter_cons_of_pos hstamp, filter_splitLines_unstamped,
      List.map_singleton, hbare]
  rw [isStamped, hstamps, hdrop]
  simp

end Stamp

end Vendoring
