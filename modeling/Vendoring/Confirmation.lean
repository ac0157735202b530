import Vendoring.Path
import Vendoring.Text.Space
import Vendoring.Text.Utf8

/-!
# Confirmation

A checkout with changes of its own is used only if the policy says so: never, always, or when the
question is answered with yes. The question can be put as a prompt. A prompt reads one line of the
input; the answer is yes if the line, without white space around it, is the letter `y` in either
case. Anything else declines: another text, bytes that are no text, and the end of the input.
-/

namespace Vendoring.Confirmation

/-- How it is decided whether to go on. -/
inductive Policy where
  | abort
  | proceed
  | ask (answer : Path → Bool)

namespace Policy

/-- The decision for a checkout. -/
def decide : Policy → Path → Bool
  | .abort, _ => false
  | .proceed, _ => true
  | .ask answer, root => answer root

/-- Whether a decision puts a question. -/
def asks : Policy → Bool
  | .ask _ => true
  | _ => false

/-- The policy as a diagnostic shows it. -/
def describe : Policy → String
  | .abort => "Abort"
  | .proceed => "Proceed"
  | .ask _ => "Ask(..)"

end Policy

/-- The text of a prompt. -/
def promptText (root : Path) : String :=
  "Warning: " ++ root.text ++ " has uncommitted changes\nContinue anyway? [y/N]: "

/-- The first line of an input with its line feed, and the input after it. -/
def takeLine : List UInt8 → List UInt8 × List UInt8
  | [] => ([], [])
  | b :: bs => if b = 10 then ([b], bs) else (b :: (takeLine bs).1, (takeLine bs).2)

/-- The first line and the rest are the input. -/
theorem takeLine_append (s : List UInt8) : (takeLine s).1 ++ (takeLine s).2 = s := by
  induction s with
  | nil => rfl
  | cons b bs ih => by_cases h : b = 10 <;> simp [takeLine, h, ih]

/-- Whether a line of input says yes. -/
def saysYes (line : List UInt8) : Bool :=
  match Text.decode ⟨line.toArray⟩ with
  | .ok text => Text.trim text == "y" || Text.trim text == "Y"
  | .error _ => false

/-- The answer to a prompt, and the input left behind it. -/
def prompt (input : List UInt8) : Bool × List UInt8 :=
  let (line, rest) := takeLine input
  (saysYes line, rest)

/-- The answers to a number of prompts on one input. -/
def prompts : Nat → List UInt8 → List Bool
  | 0, _ => []
  | n + 1, input =>
    let (answer, rest) := prompt input
    answer :: prompts n rest

end Vendoring.Confirmation
