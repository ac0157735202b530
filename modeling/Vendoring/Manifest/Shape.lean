import Vendoring.Yaml.ScalarKind

/-!
# Reading values out of a document

A reader walks over the events of a document from a position. What it finds there must have the
shape it asks for; a fault of shape is reported with the innermost place it belongs to, written as
the keys and indices on the way and the line and column in the text. An alias is read as the node it
refers to. A fault of notation shows only when the reader comes to where the events end.
-/

namespace Vendoring.Manifest

open Yaml

/-- What is wrong with the shape of a document. -/
inductive ShapeProblem where
  | unknownField (name : String) (known : List String)
  | missingField (name : String)
  | repeatedField (name : String)
  | wrongKind (found : Kind) (expected : String)
  | wrongSpelling (text : String) (expected : String)
deriving DecidableEq

/-- A name between accents. -/
def accented (name : String) : String :=
  "\x60" ++ name ++ "\x60"

/-- The wording of a problem. -/
def ShapeProblem.message : ShapeProblem → String
  | .unknownField name known =>
    "unknown field " ++ accented name ++ ", expected one of "
      ++ ", ".intercalate (known.map accented)
  | .missingField name => "missing field " ++ accented name
  | .repeatedField name => "duplicate field " ++ accented name
  | .wrongKind found expected => "invalid type: " ++ found.message ++ ", expected " ++ expected
  | .wrongSpelling text expected =>
    "invalid value: " ++ (Kind.string text).message ++ ", expected " ++ expected

/-- Why a document is no manifest: its notation, or its shape, with the place of the fault once it
is known. -/
inductive DocumentError where
  | malformed (fault : Fault)
  | shape (problem : ShapeProblem) (place : Option (String × Mark))

/-- Line and column as people count them; nothing for the start of the document. -/
def placeText (mark : Mark) : String :=
  if mark.line = 0 ∧ mark.column = 0 then ""
  else " at line " ++ toString (mark.line + 1) ++ " column " ++ toString (mark.column + 1)

/-- The wording of an error. -/
def DocumentError.message : DocumentError → String
  | .malformed fault => fault.problem.message ++ placeText fault.mark
  | .shape problem none => problem.message
  | .shape problem (some (keys, mark)) =>
    (if keys = "" then problem.message else keys ++ ": " ++ problem.message) ++ placeText mark

/-- Readers of a document keep the position of the next event. -/
abbrev Reader := ReaderT Document (StateT Nat (Except DocumentError))

namespace Reader

/-- A fault of shape whose place is not known yet. -/
def fail {α : Type} (problem : ShapeProblem) : Reader α :=
  throw (.shape problem none)

/-- Give a fault the place of the value around it, unless it has one. -/
def locate {α : Type} (keys : String) (mark : Mark) (r : Reader α) : Reader α := fun document s =>
  match r document s with
  | .error (.shape problem none) => .error (.shape problem (some (keys, mark)))
  | result => result

/-- The event at a position. -/
def eventAt (position : Nat) : Reader (Event × Mark) := do
  let document ← read
  match document.events[position]? with
  | some event => pure event
  | none => throw (.malformed (document.fault.getD ⟨.endOfDocument, ⟨0, 0, 0⟩⟩))

/-- The next event, which stays where it is. -/
def peek : Reader (Event × Mark) := do
  eventAt (← get)

/-- Pass the next event. -/
def advance : Reader Unit :=
  modify (· + 1)

/-- The position of the node that an anchor number stands for. -/
def target (number : Nat) : Reader Nat := do
  match (← read).targets.lookup number with
  | some position => pure position
  | none => throw (.malformed ⟨.unknownAlias, ⟨0, 0, 0⟩⟩)

/-- Read a node by its first event. For an alias this is the event of the node it refers to, and
reading goes on behind the alias. -/
def node {α : Type} (keys : String) (r : Event → Reader α) : Reader α := do
  let (event, mark) ← peek
  advance
  match event with
  | .alias number => do
    let behind ← get
    let position ← target number
    let (event, mark) ← eventAt position
    set (position + 1)
    let value ← locate keys mark (r event)
    set behind
    pure value
  | event => locate keys mark (r event)

/-- Something else stands where a value of the expected kind is asked for. -/
def refuse {α : Type} (event : Event) (expected : String) : Reader α :=
  match event with
  | .sequenceStart => fail (.wrongKind .sequence expected)
  | .mappingStart => fail (.wrongKind .mapping expected)
  | .scalar text style tag =>
    match scalarKind text style tag with
    | .ok kind => fail (.wrongKind kind expected)
    | .error asked => fail (.wrongSpelling (String.ofList text) asked)
  | _ => throw (.malformed ⟨.endOfDocument, ⟨0, 0, 0⟩⟩)

/-- Whether the event stands for an empty collection: nothing, or a plain scalar without text. -/
def isEmptyNode : Event → Bool
  | .void => true
  | .scalar [] .plain _ => true
  | _ => false

/-- The text of a scalar, however it is spelled. -/
def text (expected keys : String) : Reader String :=
  node keys fun
    | .scalar s _ _ => pure (String.ofList s)
    | event => refuse event expected

/-- Whether a plain scalar says that a value is absent. A tag for nothing has to go with a spelling
of nothing. -/
def isAbsent (s : List Char) (tag : Option (List Char)) : Reader Bool :=
  match tag with
  | none => pure (s.isEmpty || isNull (String.ofList s))
  | some tag =>
    if tag = standardTag "null" then
      if isNull (String.ofList s) then pure true
      else fail (.wrongSpelling (String.ofList s) "null")
    else pure false

/-- A value that may be absent. -/
def optional {α : Type} (r : Reader α) : Reader (Option α) := do
  let (event, _) ← peek
  let event ← match event with
    | .alias number => do
      let (aliased, _) ← eventAt (← target number)
      pure aliased
    | event => pure event
  let absent ← match event with
    | .scalar s .plain tag => isAbsent s tag
    | .void => pure true
    | _ => pure false
  if absent then do
    advance
    pure none
  else some <$> r

/-- Pass a whole node; aliases in it are not followed. -/
def skipNodeFrom : Nat → Nat → Reader Unit
  | 0, _ => pure ()
  | steps + 1, depth => do
    let (event, _) ← peek
    advance
    let depth := match event with
      | .sequenceStart | .mappingStart => depth + 1
      | .sequenceEnd | .mappingEnd => depth - 1
      | _ => depth
    if depth = 0 then pure () else skipNodeFrom steps depth

/-- Pass a whole node. -/
def skipNode : Reader Unit := do
  skipNodeFrom ((← read).events.size + 1) 0

/-- The elements of a sequence from an index on. -/
def elementsFrom {α : Type} (item : String → Reader α) (keys : String) :
    Nat → Nat → Reader (List α)
  | 0, _ => pure []
  | steps + 1, index => do
    let (event, _) ← peek
    match event with
    | .sequenceEnd => do
      advance
      pure []
    | _ => do
      let value ← item (keys ++ "[" ++ toString index ++ "]")
      let rest ← elementsFrom item keys steps (index + 1)
      pure (value :: rest)

/-- The elements of a sequence. -/
def sequence {α : Type} (item : String → Reader α) (keys : String) : Reader (List α) :=
  node keys fun event => do
    match event with
    | .sequenceStart => elementsFrom item keys ((← read).events.size + 1) 0
    | event => if isEmptyNode event then pure [] else refuse event "a sequence"

/-- The keys on the way to the value of a key. -/
def childKeys (keys key : String) : String :=
  if keys = "" then key else keys ++ "." ++ key

/-- A record being read: how to begin, the names of its fields in the order in which messages list
them, what to do with the value of a field, and whether other fields are refused. -/
structure Fields (σ : Type) where
  start : σ
  known : List String
  field : String → String → σ → Reader σ
  strict : Bool

/-- The name of a field. In a record that refuses others it must be known. -/
def fieldName {σ : Type} (fields : Fields σ) (keys : String) : Reader String :=
  node keys fun
    | .scalar s _ _ =>
      let name := String.ofList s
      if fields.strict && !fields.known.contains name then fail (.unknownField name fields.known)
      else pure name
    | event => refuse event "field identifier"

/-- The fields of a record behind those already read. -/
def fieldsFrom {σ : Type} (fields : Fields σ) (keys : String) : Nat → σ → Reader σ
  | 0, s => pure s
  | steps + 1, s => do
    let (event, _) ← peek
    match event with
    | .mappingEnd => do
      advance
      pure s
    | event => do
      let name ← fieldName fields keys
      let valueKeys := match event with
        | .scalar _ _ _ => childKeys keys name
        | _ => childKeys keys "?"
      let s ←
        if fields.known.contains name then fields.field name valueKeys s
        else do
          skipNode
          pure s
      fieldsFrom fields keys steps s

/-- A record: its fields, and what they make together. -/
def record {σ α : Type} (fields : Fields σ) (expected : String) (finish : σ → Reader α)
    (keys : String) : Reader α :=
  node keys fun event => do
    match event with
    | .mappingStart => finish (← fieldsFrom fields keys ((← read).events.size + 1) fields.start)
    | event =>
      if isEmptyNode event then finish fields.start else refuse event expected

/-- Read a field that must not have been read before. -/
def once {α σ : Type} (name : String) (previous : Option α) (r : Reader α) (store : α → σ) :
    Reader σ :=
  match previous with
  | some _ => fail (.repeatedField name)
  | none => store <$> r

/-- A field that must have been read. -/
def required {α : Type} (name : String) : Option α → Reader α
  | some value => pure value
  | none => fail (.missingField name)

/-- Read the only value of a document. -/
def run {α : Type} (r : String → Reader α) (document : Document) : Except DocumentError α := do
  let (value, _) ← r "" document 0
  match document.fault with
  | some fault => .error (.malformed fault)
  | none =>
    if document.followed then .error (.malformed ⟨.severalDocuments, ⟨0, 0, 0⟩⟩) else .ok value

end Reader

end Vendoring.Manifest
