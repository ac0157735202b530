import Vendoring.Cli.Request

/-!
# Help

The help of the program lists its commands and its options, that of a command the options it takes.
Names stand in a column of their own.
-/

namespace Vendoring.Cli

/-- What an option is for. -/
def Switch.about : Switch → String
  | .toolDir => "Directory the tool lives in (defaults to the executable's directory)"
  | .manifest => "YAML manifest overriding the built-in mapping and naming"
  | .verbose => "Log pipeline steps to stderr"
  | .yes => "Proceed even if the upstream tree has uncommitted changes"
  | .noRefresh => "Do not pull the upstream before syncing"
  | .dryRun => "Show what would be written without touching the embedded tree"
  | .json => "Emit machine-readable JSON"
  | .help => "Print help"
  | .version => "Print version"

/-- What a command is for. -/
def Topic.about : Topic → String
  | .program => "Sync upstream hymo sources into the ksud embedded tree"
  | .sync => "Locate, refresh, transform and write every mapped file (default)"
  | .diff => "Show unified diff of what sync would write"
  | .list => "Print the mapping table in processing order"
  | .help => "Print this message or the help of the given subcommand(s)"

/-- Names with their descriptions in two columns, under a heading. -/
def helpSection (heading : String) (entries : List (String × String)) : String :=
  let width := entries.foldl (fun w entry => max w entry.1.length) 0
  "\n" ++ heading ++ ":\n" ++ String.join (entries.map fun (name, about) =>
    "  " ++ name ++ "".pushn ' ' (width - name.length + 2) ++ about ++ "\n")

/-- An option with its short name in front of it, or with room for one. -/
def Switch.entry (s : Switch) : String × String :=
  let short := match s.short? with
    | some c => "-" ++ c.toString ++ ", "
    | none => "    "
  (short ++ s.display, s.about)

/-- The sections of a command's help. -/
def Topic.sections : Topic → String
  | .program =>
    helpSection "Commands" ((Topic.commands ++ [Topic.help]).map fun t => (t.name, t.about)) ++
      helpSection "Options" (Topic.program.switches.map Switch.entry)
  | .help => helpSection "Arguments" [("[COMMAND]...", "Print help for the subcommand(s)")]
  | topic => helpSection "Options" (topic.switches.map Switch.entry)

/-- The help of a command. -/
def Topic.helpText (topic : Topic) : String :=
  topic.about ++ "\n\nUsage: " ++ topic.usage ++ "\n" ++ topic.sections

/-- The name and the version of the program. -/
def versionText : String :=
  "embedsync 0.1.0\n"

end Vendoring.Cli
