import Vendoring.Path

/-!
# Requests on the command line

A command line names a command and its options; the options of the program itself may stand in front
of the command or behind it, where the latter count. An option may be given once on either side. A
long option takes its value from behind an equals sign or from the next argument, and short options
may share one dash. Behind two dashes nothing is an option any more, and no command takes such an
argument. An option that asks for help or for the version ends the reading where it stands; so does
the command `help`.

An option with a value is entered only when the next option comes or the arguments end, so what is
wrong with it shows only then.
-/

namespace Vendoring.Cli

/-- The options of all commands. -/
inductive Switch where
  | toolDir
  | manifest
  | verbose
  | yes
  | noRefresh
  | dryRun
  | json
  | help
  | version
deriving DecidableEq

namespace Switch

/-- The long name of an option. -/
def long : Switch → String
  | .toolDir => "tool-dir"
  | .manifest => "manifest"
  | .verbose => "verbose"
  | .yes => "yes"
  | .noRefresh => "no-refresh"
  | .dryRun => "dry-run"
  | .json => "json"
  | .help => "help"
  | .version => "version"

/-- The short name of an option. -/
def short? : Switch → Option Char
  | .verbose => some 'v'
  | .yes => some 'y'
  | .help => some 'h'
  | .version => some 'V'
  | _ => none

/-- What messages call the value of an option; there is none for an option without a value. -/
def valueName? : Switch → Option String
  | .toolDir => some "DIR"
  | .manifest => some "FILE"
  | _ => none

/-- An option as messages show it. -/
def display (s : Switch) : String :=
  "--" ++ s.long ++ match s.valueName? with
    | some value => " <" ++ value ++ ">"
    | none => ""

end Switch

/-- What the options and the help belong to: the program, or one of its commands. -/
inductive Topic where
  | program
  | sync
  | diff
  | list
  | help
deriving DecidableEq

namespace Topic

/-- The name of a command. -/
def name : Topic → String
  | .program => "embedsync"
  | .sync => "sync"
  | .diff => "diff"
  | .list => "list"
  | .help => "help"

/-- The commands that do work. -/
def commands : List Topic := [.sync, .diff, .list]

/-- The command of a name. -/
def ofName? (name : String) : Option Topic :=
  (commands ++ [Topic.help]).find? (·.name == name)

/-- The options of a command. -/
def switches : Topic → List Switch
  | .program => [.toolDir, .manifest, .verbose, .help, .version]
  | .sync => [.toolDir, .yes, .manifest, .noRefresh, .dryRun, .verbose, .help]
  | .diff => [.toolDir, .manifest, .verbose, .help]
  | .list => [.json, .toolDir, .manifest, .verbose, .help]
  | .help => []

/-- How a command is called. -/
def usage : Topic → String
  | .program => "embedsync [OPTIONS] [COMMAND]"
  | .help => "embedsync help [COMMAND]..."
  | t => "embedsync " ++ t.name ++ " [OPTIONS]"

end Topic

/-- What is wrong with a command line. -/
inductive UsageError where
  | missingValue (switch : Switch)
  | repeated (switch : Switch)
  | unneededValue (switch : Switch) (value : String)
  | unexpected (argument : String)
  | unknownCommand (name : String)
deriving DecidableEq

/-- The wording of an error, where the command is known that it arises in. -/
def UsageError.message (topic : Topic) : UsageError → String
  | .missingValue s =>
    "a value is required for '" ++ s.display ++ "' but none was supplied"
  | .repeated s =>
    "the argument '" ++ s.display ++ "' cannot be used multiple times\n\nUsage: " ++ topic.usage
  | .unneededValue s value =>
    "unexpected value '" ++ value ++ "' for '" ++ s.display ++ "' found; no more were expected"
      ++ "\n\nUsage: " ++ topic.usage
  | .unexpected argument =>
    "unexpected argument '" ++ argument ++ "' found\n\nUsage: " ++ topic.usage
  | .unknownCommand name =>
    "unrecognized subcommand '" ++ name ++ "'\n\nUsage: " ++ topic.usage

/-- Why the arguments of a command are not read to their end. -/
inductive Stop where
  | usage (topic : Topic) (error : UsageError)
  | help (topic : Topic)
  | version

/-- The options read so far, and one whose value is not entered yet. -/
structure Reading where
  given : List (Switch × String)
  pending : Option (Switch × Option String)

namespace Reading

/-- Nothing is read yet. -/
def start : Reading :=
  ⟨[], none⟩

/-- Whether an option was given. -/
def has (r : Reading) (s : Switch) : Bool :=
  r.given.any (·.1 = s)

/-- The value of an option. -/
def value? (r : Reading) (s : Switch) : Option String :=
  r.given.lookup s

/-- Enter an option with its value. -/
def enter (r : Reading) (topic : Topic) (s : Switch) (value : String) : Except Stop Reading :=
  if r.has s then .error (.usage topic (.repeated s))
  else if value.isEmpty then .error (.usage topic (.missingValue s))
  else .ok { r with given := r.given ++ [(s, value)] }

/-- Enter the option that is still to be entered. -/
def settle (r : Reading) (topic : Topic) : Except Stop Reading :=
  match r.pending with
  | none => .ok r
  | some (s, none) => .error (.usage topic (.missingValue s))
  | some (s, some value) => { r with pending := none }.enter topic s value

/-- Enter an option without a value, or do what it asks for. -/
def flag (r : Reading) (topic : Topic) (s : Switch) : Except Stop Reading := do
  let r ← r.settle topic
  match s with
  | .help => .error (.help topic)
  | .version => .error .version
  | s =>
    if r.has s then .error (.usage topic (.repeated s))
    else .ok { r with given := r.given ++ [(s, "")] }

/-- Read a long option: its name, and what stands behind an equals sign. -/
def long (r : Reading) (topic : Topic) (argument name : String) (value : Option String) :
    Except Stop Reading :=
  match topic.switches.find? (·.long == name) with
  | none => .error (.usage topic (.unexpected argument))
  | some s =>
    if s.valueName?.isSome then do
      let r ← r.settle topic
      match value with
      | some value => r.enter topic s value
      | none => .ok { r with pending := some (s, none) }
    else match value with
      | some value => .error (.usage topic (.unneededValue s value))
      | none => r.flag topic s

/-- Read short options that share a dash. -/
def shorts (r : Reading) (topic : Topic) : List Char → Except Stop Reading
  | [] => .ok r
  | c :: cs =>
    match topic.switches.find? (·.short? = some c) with
    | none => .error (.usage topic (.unexpected (String.ofList ['-', c])))
    | some s => do
      let r ← r.flag topic s
      r.shorts topic cs

/-- Read one argument that is an option; nothing is given for one that is not. -/
def option? (r : Reading) (topic : Topic) (argument : String) : Option (Except Stop Reading) :=
  match argument.toList with
  | '-' :: '-' :: rest =>
    let name := String.ofList (rest.takeWhile (· ≠ '='))
    let value := match rest.dropWhile (· ≠ '=') with
      | [] => none
      | _ :: value => some (String.ofList value)
    some (r.long topic argument name value)
  | '-' :: c :: rest => some (r.shorts topic (c :: rest))
  | _ => none

/-- Whether the next argument is the value of an option. -/
def awaits (r : Reading) : Option Switch :=
  match r.pending with
  | some (s, none) => some s
  | _ => none

end Reading

/-- What is asked for. -/
inductive Action where
  | sync (yes noRefresh dryRun : Bool)
  | diff
  | list (json : Bool)
deriving DecidableEq

/-- A command with the options of the program. -/
structure Request where
  toolDir : Option Path
  manifest : Option Path
  verbose : Bool
  action : Action
deriving DecidableEq

/-- The arguments behind options, read for one command: the options, and the arguments from the
first one on that is none. -/
def readOptions (topic : Topic) : Reading → List String → Except Stop (Reading × List String)
  | r, [] => .ok (r, [])
  | r, argument :: rest =>
    match r.awaits with
    | none =>
      if argument = "--" then
        match rest with
        | [] => .ok (r, [])
        | next :: _ => .error (.usage topic (.unexpected next))
      else match r.option? topic argument with
        | some (.ok r) => readOptions topic r rest
        | some (.error stop) => .error stop
        | none => .ok (r, argument :: rest)
    | some s =>
      if argument = "--" then .error (.usage topic (.missingValue s))
      else match r.option? topic argument with
        | some (.ok r) => readOptions topic r rest
        | some (.error stop) => .error stop
        | none => readOptions topic { r with pending := some (s, some argument) } rest

/-- The options of a command, which takes no other arguments. -/
def readCommand (topic : Topic) (arguments : List String) : Except Stop Reading := do
  let (r, rest) ← readOptions topic .start arguments
  match rest with
  | [] => r.settle topic
  | argument :: _ => .error (.usage topic (.unexpected argument))

/-- The help that the command `help` asks for: that of the program or of one of its commands. -/
def helpTopic : List String → Stop
  | [] => .help .program
  | [name] =>
    match Topic.ofName? name with
    | some topic => .help topic
    | none => .usage .program (.unknownCommand name)
  | name :: next :: _ =>
    match Topic.ofName? name with
    | some .help => .usage .help (.unknownCommand next)
    | some topic => .usage topic (.unknownCommand next)
    | none => .usage .program (.unknownCommand name)

/-- What a command does with its options. -/
def actionOf (topic : Topic) (r : Reading) : Action :=
  match topic with
  | .diff => .diff
  | .list => .list (r.has .json)
  | _ => .sync (r.has .yes) (r.has .noRefresh) (r.has .dryRun)

/-- The options in front of a command and those behind it, put together. -/
def requestOf (outer inner : Reading) (topic : Topic) : Request :=
  { toolDir := ((inner.value? .toolDir).or (outer.value? .toolDir)).map Path.mk
    manifest := ((inner.value? .manifest).or (outer.value? .manifest)).map Path.mk
    verbose := inner.has .verbose || outer.has .verbose
    action := actionOf topic inner }

/-- The request of a command line. Without a command it is the one to synchronise. -/
def Request.ofArguments (arguments : List String) : Except Stop Request := do
  let (outer, rest) ← readOptions .program .start arguments
  match rest with
  | [] =>
    let outer ← outer.settle .program
    .ok (requestOf outer .start .sync)
  | name :: rest =>
    match Topic.ofName? name with
    | none => .error (.usage .program (.unknownCommand name))
    | some .help => .error (helpTopic rest)
    | some topic =>
      let inner ← readCommand topic rest
      let outer ← outer.settle .program
      .ok (requestOf outer inner topic)

end Vendoring.Cli
