import Vendoring.Fragments
import Vendoring.Rule
import Vendoring.Text.Quoted

/-!
# Transformation of sources

A transformer turns the text of a source into what is written for it. Line ends of two characters
become line feeds; then the literal rules apply, one after the other, to every file; then the
structural rules apply to the entry point alone, which is told by its path. The structural rules may
be any; the transformer of the settings has five.
-/

namespace Vendoring

/-- The rules of a transformation. -/
structure Transformer where
  literal : List Substitution
  entryPoint : Path
  structural : List Rule

namespace Transformer

/-- The transformer of the settings, with header and adapter written once. -/
def ofSettings (s : Settings) : Except UnmappedEntryPoint Transformer := do
  let context ← FragmentContext.ofSettings s
  pure
    { literal := s.substitutions
      entryPoint := s.entryPoint
      structural := [
        .entryPoint s.naming,
        .helpFunction s.naming,
        .usageBanner s.naming,
        .header context.header,
        .adapter context.adapter] }

/-- Whether a source path is the entry point. -/
def isEntryPoint (t : Transformer) (source : Path) : Bool :=
  source.Same t.entryPoint

/-- The rules that apply to a source path, in order. -/
def rulesFor (t : Transformer) (source : Path) : List Rule :=
  t.literal.map (fun s => .literal s.pattern s.replacement) ++
    if t.isEntryPoint source then t.structural else []

/-- Transform the text of a source. -/
def edit (t : Transformer) (source : Path) (s : List Char) : List Char :=
  (t.rulesFor source).foldl (fun s rule => rule.edit s) (Text.unifyLineEnds s)

/-- Transform the text of a source. -/
def transform (t : Transformer) (text : String) (source : Path) : String :=
  String.ofList (t.edit source text.toList)

/-- The names of the rules in the order in which they apply; the literal rules count as one. -/
def ruleNames (t : Transformer) : List String :=
  (if t.literal.isEmpty then [] else ["literal"]) ++ t.structural.map Rule.name

/-- A substitution as a diagnostic shows it. -/
def describeSubstitution (s : Substitution) : String :=
  "LiteralRule \x7b from: " ++ Text.quoted s.pattern ++ ", to: " ++ Text.quoted s.replacement
    ++ " \x7d"

/-- The transformer as a diagnostic shows it. -/
def describe (t : Transformer) : String :=
  "ContentTransformer \x7b literal: ["
    ++ ", ".intercalate (t.literal.map describeSubstitution)
    ++ "], entry_point: " ++ Text.quotedPath t.entryPoint.text
    ++ ", structural: [" ++ ", ".intercalate (t.ruleNames.map Text.quoted) ++ "] \x7d"

end Transformer

end Vendoring
