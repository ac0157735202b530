import Vendoring.Settings
import Vendoring.Text.Space
import Vendoring.Text.Substitution

/-!
# Text around the entry point

The adapted entry point gets a header of comments in front, which tells where it comes from, and an
adapter function behind, which calls it with the arguments the host passes. Both are written from
the settings, with single line feeds, one empty line behind the header and one in front of the
adapter.
-/

namespace Vendoring

/-- What the header and the adapter are written from. -/
structure FragmentContext where
  generatedName : String
  description : String
  label : String
  sourceSubdir : String
  entryPoint : String
  entryFunction : String
  helpFunction : String
  standaloneProgram : String
  invocation : String
  hostCommand : String
  adapterNamespace : String
  adapterFunction : String
  placeholder : String
deriving DecidableEq

/-- The entry point of the settings has no destination. -/
structure UnmappedEntryPoint where
  entryPoint : String
deriving DecidableEq

/-- The wording of the error. -/
def UnmappedEntryPoint.message (e : UnmappedEntryPoint) : String :=
  "entry point '" ++ e.entryPoint ++ "' has no mapped destination"

/-- A path with slashes where it has backslashes. -/
def slashed (p : Path) : String :=
  String.ofList (p.text.toList.map fun c => if c = '\\' then '/' else c)

namespace FragmentContext

/-- What the fragments are written from, taken from the settings. -/
def ofSettings (s : Settings) : Except UnmappedEntryPoint FragmentContext :=
  let entryPoint := slashed s.entryPoint
  match s.entryPointDestination? with
  | none => .error ⟨entryPoint⟩
  | some destination =>
    .ok
      { generatedName := String.ofList (destination.fileName?.getD destination.text.toList)
        description := s.naming.description
        label := s.naming.label
        sourceSubdir := slashed s.sourceSubdir
        entryPoint
        entryFunction := s.naming.entryFunction
        helpFunction := s.naming.helpFunction
        standaloneProgram := s.naming.standaloneProgram
        invocation := s.naming.invocation
        hostCommand := s.naming.hostCommand
        adapterNamespace := s.naming.adapterNamespace
        adapterFunction := s.naming.adapterFunction
        placeholder := s.naming.placeholder }

/-- The comment lines of the header. -/
def headerText (c : FragmentContext) : String :=
  "// " ++ c.generatedName ++ " - " ++ c.description ++ "\n" ++
  "// Auto-synced from " ++ c.label ++ "/" ++ c.sourceSubdir ++ "/" ++ c.entryPoint ++ "\n" ++
  "//\n" ++
  "// Changes from standalone version:\n" ++
  "// - int main() -> int " ++ c.entryFunction ++ "()\n" ++
  "// - print_help() -> " ++ c.helpFunction ++ "()\n" ++
  "// - \"" ++ c.standaloneProgram ++ "\" -> \"" ++ c.invocation ++ "\" in help text\n" ++
  "//\n" ++
  "// NOTE: This file is auto-generated. Manual edits will be overwritten!\n"

/-- The lines of the adapter. -/
def adapterText (c : FragmentContext) : String :=
  "namespace " ++ c.adapterNamespace ++ " \x7b\n" ++
  "\n" ++
  "// Wrapper function for " ++ c.hostCommand ++ " CLI integration\n" ++
  "int " ++ c.adapterFunction ++ "(const std::vector<std::string>& args) \x7b\n" ++
  "    // Convert args to argc/argv format\n" ++
  "    std::vector<const char*> argv_ptrs;\n" ++
  "    argv_ptrs.push_back(\"" ++ c.placeholder ++ "\");  // Program name\n" ++
  "    for (const auto& arg : args) \x7b\n" ++
  "        argv_ptrs.push_back(arg.c_str());\n" ++
  "    \x7d\n" ++
  "\n" ++
  "    int argc = static_cast<int>(argv_ptrs.size());\n" ++
  "    char** argv = const_cast<char**>(argv_ptrs.data());\n" ++
  "\n" ++
  "    return " ++ c.entryFunction ++ "(argc, argv);\n" ++
  "\x7d\n" ++
  "\n" ++
  "\x7d  // namespace " ++ c.adapterNamespace ++ "\n"

/-- The header, with an empty line behind it. -/
def header (c : FragmentContext) : String :=
  String.ofList (Text.dropEndWhile Text.isSpace (Text.unifyLineEnds c.headerText.toList)
    ++ ['\n', '\n'])

/-- The adapter, with an empty line in front of it and a line feed behind. -/
def adapter (c : FragmentContext) : String :=
  String.ofList ('\n' :: Text.trimBoth (· == '\n') (Text.unifyLineEnds c.adapterText.toList)
    ++ ['\n'])

end FragmentContext

end Vendoring
