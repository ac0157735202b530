import Vendoring.Manifest
import Vendoring.Manifest.Shape

/-!
# Manifests as documents

A manifest is written as a mapping with the fields below, any of which may be left out. The fields
of the naming replace the default names one by one. Mappings and substitutions need both of their
fields and may have others.
-/

namespace Vendoring.Manifest

open Reader

/-- The text that a message expects for a path. -/
def pathText : String := "path string"

/-- The text that a message expects for a text. -/
def plainText : String := "a string"

/-- A path. -/
def pathReader (keys : String) : Reader Path := do
  pure ⟨← text pathText keys⟩

/-- A mapping. -/
def mappingReader (keys : String) : Reader Mapping :=
  let fields : Fields (Option Path × Option Path) :=
    { start := (none, none)
      known := ["upstream", "destination"]
      strict := false
      field := fun name keys s =>
        if name = "upstream" then once name s.1 (pathReader keys) (fun p => (some p, s.2))
        else once name s.2 (pathReader keys) (fun p => (s.1, some p)) }
  record fields "struct SourceMapping" (fun s => do
    let source ← required "upstream" s.1
    let destination ← required "destination" s.2
    pure ⟨source, destination⟩) keys

/-- A substitution. -/
def substitutionReader (keys : String) : Reader Substitution :=
  let fields : Fields (Option String × Option String) :=
    { start := (none, none)
      known := ["from", "to"]
      strict := false
      field := fun name keys s =>
        if name = "from" then once name s.1 (text plainText keys) (fun t => (some t, s.2))
        else once name s.2 (text plainText keys) (fun t => (s.1, some t)) }
  record fields "struct IncludeRewrite" (fun s => do
    let pattern ← required "from" s.1
    let replacement ← required "to" s.2
    pure ⟨pattern, replacement⟩) keys

/-- The names of a naming with the fields they are kept in. -/
def namingFields : List (String × (Naming → String → Naming)) := [
  ("host_command", fun n s => { n with hostCommand := s }),
  ("subcommand", fun n s => { n with subcommand := s }),
  ("standalone_program", fun n s => { n with standaloneProgram := s }),
  ("entry_function", fun n s => { n with entryFunction := s }),
  ("help_function", fun n s => { n with helpFunction := s }),
  ("adapter_function", fun n s => { n with adapterFunction := s }),
  ("adapter_namespace", fun n s => { n with adapterNamespace := s }),
  ("argv0_placeholder", fun n s => { n with placeholder := s }),
  ("upstream_label", fun n s => { n with label := s }),
  ("description", fun n s => { n with description := s })]

/-- The naming with some names set. -/
def namingOf (names : List (String × String)) : Naming :=
  names.foldl (fun n (name, value) =>
    match namingFields.lookup name with
    | some store => store n value
    | none => n) {}

/-- A naming; names that are left out keep their defaults. -/
def namingReader (keys : String) : Reader Naming :=
  let fields : Fields (List (String × String)) :=
    { start := []
      known := namingFields.map (·.1)
      strict := true
      field := fun name keys s =>
        once name (s.lookup name) (text plainText keys) (fun t => s ++ [(name, t)]) }
  record fields "struct EmbedNames" (fun s => pure (namingOf s)) keys

/-- The fields of a manifest as they are read: whether each was there, and what it says. -/
structure Partial where
  seen : List String := []
  manifest : Manifest := {}

/-- The fields of a manifest in the order in which messages list them. -/
def knownFields : List String :=
  ["upstream_dir_name", "upstream_url", "source_subdir", "entry_point", "stamp_target", "naming",
    "include_rewrites", "mappings"]

/-- Read the value of a field of a manifest. -/
def manifestField (name keys : String) (m : Manifest) : Reader Manifest :=
  match name with
  | "upstream_dir_name" =>
    (fun v => { m with checkoutName := v }) <$> optional (text plainText keys)
  | "upstream_url" => (fun v => { m with cloneUrl := v }) <$> optional (text plainText keys)
  | "source_subdir" => (fun v => { m with sourceSubdir := v }) <$> optional (pathReader keys)
  | "entry_point" => (fun v => { m with entryPoint := v }) <$> optional (pathReader keys)
  | "stamp_target" => (fun v => { m with stampTarget := v }) <$> optional (pathReader keys)
  | "naming" => (fun v => { m with naming := v }) <$> optional (namingReader keys)
  | "include_rewrites" =>
    (fun v => { m with substitutions := v }) <$> optional (sequence substitutionReader keys)
  | "mappings" => (fun v => { m with mappings := v }) <$> optional (sequence mappingReader keys)
  | _ => pure m

/-- A manifest. -/
def manifestReader (keys : String) : Reader Manifest :=
  let fields : Fields Partial :=
    { start := {}
      known := knownFields
      strict := true
      field := fun name keys s =>
        if s.seen.contains name then fail (.repeatedField name)
        else do
          let m ← manifestField name keys s.manifest
          pure ⟨name :: s.seen, m⟩ }
  record fields "struct Manifest" (fun s => pure s.manifest) keys

/-- Read a manifest from the text of a document. -/
def ofText (text : String) : Except DocumentError Manifest :=
  run manifestReader (Yaml.Document.ofText text)

end Vendoring.Manifest
