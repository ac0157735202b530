import Vendoring.Manifest.Document
import Vendoring.Mapping.Builtin
import Vendoring.Text.Utf8
import Vendoring.Tree

/-!
# Settings of a run

All settings follow from the directory that the tool lives in: the host component around it, the
embedded root below that, and two places above it where a checkout of the vendored project may lie.
A manifest overrides some of them. Applying one changes the settings key by key and stops at the
first fault, so a rejected manifest leaves behind what came before the fault.
-/

namespace Vendoring

/-- Why settings cannot be had. -/
inductive SettingsError where
  | mapping (error : MappingError)
  | unknownEntryPoint (entryPoint : Path)
  | shallowToolDir (toolDir : Path)
  | unreadable (path : Path) (cause : IoError)
  | malformed (path : Path) (error : Manifest.DocumentError)

/-- The wording of an error. -/
def SettingsError.message : SettingsError → String
  | .mapping error => error.message
  | .unknownEntryPoint entryPoint =>
    "entry point '" ++ entryPoint.text ++ "' is not in the mapping table"
  | .shallowToolDir toolDir =>
    "cannot derive host layout from tool directory " ++ toolDir.text
  | .unreadable path cause => "I/O error at " ++ path.text ++ ": " ++ cause.message
  | .malformed path error => "failed to parse manifest at " ++ path.text ++ ": " ++ error.message

/-- Everything that a run needs to know. Candidates are the places where a checkout may lie, in the
order in which they are tried; mappings start from `sourceSubdir` of the checkout, and their
destinations lie below `embeddedRoot`. The entry point is the source path of the file that is
adapted, and the stamp target is the destination path of the file that carries the version. -/
structure Settings where
  toolDir : Path
  hostDir : Path
  checkoutName : String
  candidates : List Path
  cloneUrl : String
  sourceSubdir : Path
  embeddedRoot : Path
  entryPoint : Path
  stampTarget : Path
  stampPrefix : String
  unknownVersion : String
  naming : Naming
  substitutions : List Substitution
  mappings : MappingTable

namespace Settings

/-- The headers that get another name in the host. -/
def renamedHeaders : List String := ["defs.hpp", "utils.hpp"]

/-- The ways in which a file refers to the headers, by its depth. -/
def includeDepths : List String := ["", "../", "../../"]

/-- An include line of a header. -/
def includeLine (depth header : String) : String :=
  "#include \"" ++ depth ++ header ++ "\""

/-- Includes of the renamed headers follow them, at every depth. -/
def defaultSubstitutions : List Substitution :=
  includeDepths.flatMap fun depth => renamedHeaders.map fun header =>
    ⟨includeLine depth header, includeLine depth ("hymo_" ++ header)⟩

/-- The line start that marks a version stamp. -/
def stampPrefixOf (label : String) : String :=
  "// Synced from " ++ label ++ " "

/-- Where a checkout of the given name may lie: in the project that is two levels above the host
component, or beside that project. -/
def candidatesFor (toolDir hostDir : Path) (name : String) : Except SettingsError (List Path) :=
  match hostDir.parent?.bind Path.parent? with
  | none => .error (.shallowToolDir toolDir)
  | some project =>
    match project.parent? with
    | none => .error (.shallowToolDir toolDir)
    | some workspace => .ok [project.join ⟨name⟩, workspace.join ⟨name⟩]

/-- The entry point must be the source of a mapping. -/
def validate (s : Settings) : Except SettingsError Unit :=
  if (s.mappings.get? s.entryPoint).isSome then .ok ()
  else .error (.unknownEntryPoint s.entryPoint)

/-- The settings that follow from a tool directory. -/
def ofToolDir (toolDir : Path) : Except SettingsError Settings :=
  match toolDir.parent? with
  | none => .error (.shallowToolDir toolDir)
  | some hostDir => do
    let name := "meta-hymo"
    let candidates ← candidatesFor toolDir hostDir name
    let settings : Settings :=
      { toolDir
        hostDir
        checkoutName := name
        candidates
        cloneUrl := "https://github.com/Anatdx/meta-hymo"
        sourceSubdir := ⟨"src"⟩
        embeddedRoot := (hostDir.join ⟨"src"⟩).join ⟨"hymo"⟩
        entryPoint := ⟨"main.cpp"⟩
        stampTarget := ⟨"hymo_defs.hpp"⟩
        stampPrefix := stampPrefixOf "hymo"
        unknownVersion := "unknown"
        naming := {}
        substitutions := defaultSubstitutions
        mappings := MappingTable.builtin }
    settings.validate
    pure settings

/-- The settings with the keys of a manifest that cannot be at fault. -/
def withKeys (s : Settings) (m : Manifest) : Settings :=
  { s with
    cloneUrl := m.cloneUrl.getD s.cloneUrl
    sourceSubdir := m.sourceSubdir.getD s.sourceSubdir
    entryPoint := m.entryPoint.getD s.entryPoint
    stampTarget := m.stampTarget.getD s.stampTarget
    stampPrefix := (m.naming.map fun n => stampPrefixOf n.label).getD s.stampPrefix
    naming := m.naming.getD s.naming
    substitutions := m.substitutions.getD s.substitutions }

/-- The settings with the checkout name of a manifest. -/
def withCheckout (s : Settings) (m : Manifest) : Except SettingsError Settings :=
  match m.checkoutName with
  | none => .ok s
  | some name => do
    let candidates ← candidatesFor s.toolDir s.hostDir name
    pure { s with candidates, checkoutName := name }

/-- The settings with the mappings of a manifest. -/
def withMappings (s : Settings) (m : Manifest) : Except SettingsError Settings :=
  match m.mappings with
  | none => .ok s
  | some entries =>
    match MappingTable.ofList entries with
    | .ok mappings => .ok { s with mappings }
    | .error error => .error (.mapping error)

/-- Apply a manifest: the settings it leads to, and what is wrong with it or with them. -/
def apply (s : Settings) (m : Manifest) : Settings × Except SettingsError Unit :=
  match s.withCheckout m with
  | .error error => (s, .error error)
  | .ok located =>
    let keyed := located.withKeys m
    match keyed.withMappings m with
    | .error error => (keyed, .error error)
    | .ok mapped => (mapped, mapped.validate)

/-- The source directory of a checkout. -/
def sourceDir (s : Settings) (checkout : Path) : Path :=
  checkout.join s.sourceSubdir

/-- Where the entry point goes, below the embedded root. -/
def entryPointDestination? (s : Settings) : Option Path :=
  s.mappings.destinationOf? s.entryPoint

/-- The path of the stamp target. -/
def stampTargetPath (s : Settings) : Path :=
  s.embeddedRoot.join s.stampTarget

end Settings

/-- Read a manifest from a file. -/
def Manifest.load (tree : Tree) (path : Path) : Except SettingsError Manifest :=
  match tree.read path with
  | .error cause => .error (.unreadable path cause)
  | .ok bytes =>
    match Text.decode bytes with
    | .error _ => .error (.unreadable path .notText)
    | .ok text =>
      match Manifest.ofText text with
      | .ok m => .ok m
      | .error error => .error (.malformed path error)

end Vendoring
