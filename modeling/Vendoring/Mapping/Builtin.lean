import Vendoring.Mapping.Lemmas

/-!
# The built-in table

The files that are vendored when nothing else is configured. They keep their places, but for three
names that would clash with the host's own files and for the entry point.
-/

namespace Vendoring.MappingTable

/-- Files that go to the path they come from. -/
def builtinUnchanged : List String := [
  "conf/config.cpp", "conf/config.hpp",
  "core/executor.cpp", "core/executor.hpp", "core/inventory.cpp", "core/inventory.hpp",
  "core/json.hpp", "core/modules.cpp", "core/modules.hpp", "core/planner.cpp",
  "core/planner.hpp", "core/state.cpp", "core/state.hpp", "core/storage.cpp",
  "core/storage.hpp", "core/sync.cpp", "core/sync.hpp", "core/user_rules.cpp",
  "core/user_rules.hpp",
  "mount/hymo_magic.h", "mount/hymofs.cpp", "mount/hymofs.hpp", "mount/magic.cpp",
  "mount/magic.hpp", "mount/overlay.cpp", "mount/overlay.hpp"]

/-- Files that get another name. -/
def builtinRenamed : List (String × String) := [
  ("utils.cpp", "hymo_utils.cpp"), ("utils.hpp", "hymo_utils.hpp"),
  ("defs.hpp", "hymo_defs.hpp"), ("main.cpp", "hymo_cli.cpp")]

/-- The mappings of the built-in table. -/
def builtinEntries : List Mapping :=
  builtinUnchanged.map (fun p => ⟨⟨p⟩, ⟨p⟩⟩) ++
    builtinRenamed.map (fun (p, q) => ⟨⟨p⟩, ⟨q⟩⟩)

/-- The components of a path of names. -/
def namesOf (names : List String) : List Component :=
  names.map fun name => .name name.toList

/-- The directories of the files that go to the path they come from, with the names in them. -/
def unchangedNames : List (String × List String) := [
  ("conf", ["config.cpp", "config.hpp"]),
  ("core", ["executor.cpp", "executor.hpp", "inventory.cpp", "inventory.hpp", "json.hpp",
    "modules.cpp", "modules.hpp", "planner.cpp", "planner.hpp", "state.cpp", "state.hpp",
    "storage.cpp", "storage.hpp", "sync.cpp", "sync.hpp", "user_rules.cpp", "user_rules.hpp"]),
  ("mount", ["hymo_magic.h", "hymofs.cpp", "hymofs.hpp", "magic.cpp", "magic.hpp", "overlay.cpp",
    "overlay.hpp"])]

/-- The paths of the built-in table, read. -/
theorem components_builtinEntries :
    builtinEntries.map (fun m => (m.source.components, m.destination.components)) =
      (unchangedNames.flatMap fun (dir, names) =>
        names.map fun name => (namesOf [dir, name], namesOf [dir, name])) ++
      builtinRenamed.map fun (p, q) => (namesOf [p], namesOf [q]) := by
  decide +kernel

/-- The built-in table. -/
def builtin : MappingTable where
  entries := builtinEntries
  valid := firstFault?_eq_none_of_components components_builtinEntries
    (by decide +kernel) (by decide +kernel)

end Vendoring.MappingTable
