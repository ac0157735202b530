import Vendoring.Text.Space
import Vendoring.Text.Utf8
import Vendoring.Tree

/-!
# Version control

A client answers four questions about a checkout: whether it has changes of its own, what refreshing
it says, and by which label or revision it is known. An answer may change the tree. A client can
answer from a script, or by running a program in the checkout, where the answer is what the program
prints, without white space around it. The version label is the answer to the first of two questions
that has one.
-/

namespace Vendoring.VersionControl

/-- Why there is no answer. -/
inductive Failure where
  | notStarted (program : String) (cause : IoError)
  | commandFailed (command errors : String)
  | emptyOutput (command : String)
  | scripted (message : String)
deriving DecidableEq

/-- The wording of a failure. -/
def Failure.message : Failure → String
  | .notStarted program cause => "failed to run " ++ program ++ ": " ++ cause.message
  | .commandFailed command errors => "\x60" ++ command ++ "\x60 failed: " ++ errors
  | .emptyOutput command => "\x60" ++ command ++ "\x60 produced no output"
  | .scripted message => message

/-- What a client is asked. -/
inductive Query where
  | modifications
  | refresh
  | label
  | revision
deriving DecidableEq

/-- The name of a query. -/
def Query.name : Query → String
  | .modifications => "has_local_modifications"
  | .refresh => "refresh"
  | .label => "describe"
  | .revision => "short_revision"

/-- The answers about a checkout in a tree, each with the tree left behind. -/
structure Client where
  modifications : Path → Tree → Except Failure Bool × Tree
  refresh : Path → Tree → Except Failure String × Tree
  label : Path → Tree → Except Failure String × Tree
  revision : Path → Tree → Except Failure String × Tree

/-- The client leaves every tree as it is. -/
structure Client.KeepsTree (client : Client) : Prop where
  modifications : ∀ root tree, (client.modifications root tree).2 = tree
  refresh : ∀ root tree, (client.refresh root tree).2 = tree
  label : ∀ root tree, (client.label root tree).2 = tree
  revision : ∀ root tree, (client.revision root tree).2 = tree

/-! ## Scripted answers -/

/-- Answers laid down beforehand; a question without an answer fails. -/
structure Script where
  modifications : Option Bool := some false
  refresh : Except String String := .ok ""
  label : Option String := none
  revision : Option String := none

/-- A checkout without changes that is up to date and has a label. -/
def Script.clean (label : String) : Script :=
  { refresh := .ok "Already up to date.", label := some label }

/-- An answer, or a failure with a message. -/
def answerOr {α : Type} (message : String) : Option α → Except Failure α
  | some answer => .ok answer
  | none => .error (.scripted message)

/-- The client that answers from a script. -/
def Script.client (s : Script) : Client where
  modifications _ tree := (answerOr "status unavailable" s.modifications, tree)
  refresh _ tree := (s.refresh.mapError .scripted, tree)
  label _ tree := (answerOr "no tags" s.label, tree)
  revision _ tree := (answerOr "no HEAD" s.revision, tree)

/-- Scripted answers keep the tree. -/
theorem Script.client_keepsTree (s : Script) : s.client.KeepsTree :=
  ⟨fun _ _ => rfl, fun _ _ => rfl, fun _ _ => rfl, fun _ _ => rfl⟩

/-! ## Answers of a program -/

/-- What a program printed, and whether it reported success. -/
structure Reply where
  output : ByteArray
  errors : ByteArray
  success : Bool

/-- A program by its name. If it is installed, it replies to arguments in a directory of a tree. -/
structure Program where
  name : String
  reply? : Option (Path → List String → Tree → Reply × Tree)

/-- A program that replies to its first argument from a list, and otherwise reports failure. -/
def Program.scripted (name : String) (replies : List (String × Reply)) : Program where
  name
  reply? := some fun _ arguments tree =>
    let reply := arguments.head?.bind fun first => replies.lookup first
    (reply.getD ⟨.empty, .empty, false⟩, tree)

/-- The arguments by which a program is asked. -/
def Query.arguments : Query → List String
  | .modifications => ["status", "--porcelain"]
  | .refresh => ["pull"]
  | .label => ["describe", "--tags", "--always"]
  | .revision => ["rev-parse", "--short", "HEAD"]

/-- Arguments in one line. -/
def Query.line (query : Query) : String :=
  " ".intercalate query.arguments

namespace Program

/-- The command line of a query. -/
def command (program : Program) (query : Query) : String :=
  program.name ++ " " ++ query.line

/-- Whether the text holds a NUL, which no argument can pass on. -/
def holdsNul (s : String) : Bool :=
  s.toList.contains '\x00'

/-- Why a program cannot run in a directory; there is no reason if it can. -/
def obstacle? (program : Program) (root : Path) (tree : Tree) : Option IoError :=
  if holdsNul program.name || holdsNul root.text then some .nulInArgument
  else match tree.locate root with
    | .error cause => some cause
    | .ok place =>
      if !(tree.at? place).any Node.isDirectory then some .notADirectory
      else if program.reply?.isNone then some .notFound
      else none

/-- What a program prints on a query, without white space around it. -/
def ask (program : Program) (query : Query) (root : Path) (tree : Tree) :
    Except Failure String × Tree :=
  match program.obstacle? root tree, program.reply? with
  | some cause, _ => (.error (.notStarted program.name cause), tree)
  | none, none => (.error (.notStarted program.name .notFound), tree)
  | none, some reply =>
    let (reply, left) := reply root query.arguments tree
    if reply.success then (.ok (Text.trim (Text.decodeLossy reply.output)), left)
    else
      (.error (.commandFailed (program.command query)
        (Text.trim (Text.decodeLossy reply.errors))), left)

/-- What a program prints on a query, which must be something. -/
def askSome (program : Program) (query : Query) (root : Path) (tree : Tree) :
    Except Failure String × Tree :=
  match program.ask query root tree with
  | (.ok text, left) =>
    (if text.isEmpty then .error (.emptyOutput (program.command query)) else .ok text, left)
  | (.error failure, left) => (.error failure, left)

/-- The client that asks a program. A checkout has changes if the program lists any. -/
def client (program : Program) : Client where
  modifications root tree :=
    let (answer, left) := program.ask .modifications root tree
    (answer.map fun text => !text.isEmpty, left)
  refresh root tree := program.ask .refresh root tree
  label root tree := program.askSome .label root tree
  revision root tree := program.askSome .revision root tree

end Program

/-! ## The version label -/

/-- The version of a checkout with the queries that were needed, and the tree left behind. -/
structure Version where
  label : String
  queries : List (Query × Tree)
  tree : Tree

/-- The label of a checkout, else its revision, else a word for an unknown version. -/
def Client.version (client : Client) (root : Path) (unknown : String) (tree : Tree) : Version :=
  match client.label root tree with
  | (.ok label, left) => ⟨label, [(.label, tree)], left⟩
  | (.error _, left) =>
    let queries := [(.label, tree), (.revision, left)]
    match client.revision root left with
    | (.ok revision, final) => ⟨revision, queries, final⟩
    | (.error _, final) => ⟨unknown, queries, final⟩

end Vendoring.VersionControl
