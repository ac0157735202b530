/-!
# Lines

A line of a text runs through its line feed. `splitLines` keeps the line feeds, so its pieces joined
give back the text; `lines` shows the lines without their ends, where the end may also be a carriage
return and a line feed. For comparing texts a lone carriage return ends a line as well
(`splitBreaks`).
-/

namespace Vendoring.Text

/-- The first line with its line feed, and the text after it. -/
def takeLine : List Char → List Char × List Char
  | [] => ([], [])
  | c :: cs => if c = '\n' then (['\n'], cs) else ((c :: (takeLine cs).1), (takeLine cs).2)

/-- The first line and the rest are the text. -/
theorem takeLine_append (s : List Char) : (takeLine s).1 ++ (takeLine s).2 = s := by
  induction s with
  | nil => rfl
  | cons c cs ih => by_cases h : c = '\n' <;> simp [takeLine, h, ih]

/-- Behind a first line there is less text than before. -/
theorem takeLine_length (c : Char) (cs : List Char) :
    (takeLine (c :: cs)).2.length ≤ cs.length := by
  induction cs generalizing c with
  | nil => by_cases h : c = '\n' <;> simp [takeLine, h]
  | cons d cs ih =>
    by_cases h : c = '\n'
    · simp [takeLine, h]
    · have := ih d
      simp only [takeLine, h, if_false, List.length_cons] at this ⊢
      omega

/-- The lines of a text, each with its line feed; the last may have none. -/
def splitLines (s : List Char) : List (List Char) :=
  match s with
  | [] => []
  | c :: cs => (takeLine (c :: cs)).1 :: splitLines (takeLine (c :: cs)).2
termination_by s.length
decreasing_by
  have := takeLine_length c cs
  simp only [List.length_cons]
  omega

/-- Joined, the lines are the text. -/
theorem flatten_splitLines (s : List Char) : (splitLines s).flatten = s := by
  induction h : s.length using Nat.strongRecOn generalizing s with
  | ind n ih =>
    cases s with
    | nil => simp [splitLines]
    | cons c cs =>
      have hlen := takeLine_length c cs
      rw [splitLines, List.flatten_cons, ih _ (by simp only [List.length_cons] at h; omega) _ rfl,
        takeLine_append]

/-- A line without its line feed, and without a carriage return before the line feed. -/
def bareLine (line : List Char) : List Char :=
  match line.reverse with
  | '\n' :: '\r' :: rest => rest.reverse
  | '\n' :: rest => rest.reverse
  | _ => line

/-- The lines of a text without their ends. -/
def lines (s : List Char) : List (List Char) :=
  (splitLines s).map bareLine

/-- The first line where a carriage return with or without a line feed also ends one, and the text
after it. -/
def takeBreak : List Char → List Char × List Char
  | [] => ([], [])
  | c :: cs =>
    if c = '\n' then (['\n'], cs)
    else if c = '\r' then
      match cs with
      | '\n' :: rest => (['\r', '\n'], rest)
      | _ => (['\r'], cs)
    else ((c :: (takeBreak cs).1), (takeBreak cs).2)

/-- Behind a first line there is less text than before. -/
theorem takeBreak_length (c : Char) (cs : List Char) :
    (takeBreak (c :: cs)).2.length ≤ cs.length := by
  induction cs generalizing c with
  | nil => by_cases h : c = '\n' <;> by_cases h' : c = '\r' <;> simp [takeBreak, h, h']
  | cons d cs ih =>
    have := ih d
    unfold takeBreak
    split
    · simp
    · split
      · split
        · rename_i rest h
          obtain ⟨rfl, rfl⟩ := List.cons.inj h
          simp
        · simp
      · simp only [List.length_cons]
        omega

/-- The lines of a text with their ends, where a lone carriage return ends a line too. -/
def splitBreaks (s : List Char) : List (List Char) :=
  match s with
  | [] => []
  | c :: cs => (takeBreak (c :: cs)).1 :: splitBreaks (takeBreak (c :: cs)).2
termination_by s.length
decreasing_by
  have := takeBreak_length c cs
  simp only [List.length_cons]
  omega

end Vendoring.Text
