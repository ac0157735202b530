import Vendoring.Yaml.Lexer

/-!
# From tokens to events

A document is a tree of nodes, and the events are its nodes in the order of the text: a scalar, an
alias, and the start and end of a sequence or mapping. Reading keeps the events that came before a
fault, because a reader of the document may find fault with those first. An alias refers to the node
its anchor names by the number of the anchor. Anchors are numbered by how many different names came
before, so that a name used anew can share its number with the next new name; a number stands for
the node that took it last.
-/

namespace Vendoring.Yaml

/-- The parts of a document in the order of its text. -/
inductive Event where
  | void
  | alias (number : Nat)
  | scalar (text : List Char) (style : ScalarStyle) (tag : Option (List Char))
  | sequenceStart
  | sequenceEnd
  | mappingStart
  | mappingEnd
deriving DecidableEq

/-- A document as far as it could be read: its events with their places, the event that each anchor
number stands for, and the fault that ended the reading early. `followed` tells that more than the
end of the stream comes behind it. -/
structure Document where
  events : Array (Event × Mark)
  targets : List (Nat × Nat)
  fault : Option Fault
  followed : Bool

/-- The state of reading events. -/
structure EventReader where
  lexer : Lexer
  events : Array (Event × Mark)
  anchors : List (List Char × Nat)
  targets : List (Nat × Nat)
  handles : List (List Char × List Char)

/-- Reading keeps its state when it fails. -/
abbrev ReadM := EStateM Fault EventReader

namespace ReadM

/-- The next token, which stays where it is. -/
def peek : ReadM PlacedToken := do
  let s ← get
  match s.lexer.peek with
  | .ok (token, lexer) =>
    set { s with lexer }
    pure token
  | .error fault => throw fault

/-- Pass the next token. -/
def drop : ReadM Unit :=
  modify fun s => { s with lexer := s.lexer.drop }

/-- Add an event. -/
def emit (event : Event) (mark : Mark) : ReadM Unit :=
  modify fun s => { s with events := s.events.push (event, mark) }

/-- An empty plain scalar stands where a node is left out. -/
def emitEmpty (mark : Mark) : ReadM Unit :=
  emit (.scalar [] .plain none) mark

/-- Let an anchor name the event that comes next. -/
def nameNext (anchor : Option (List Char)) : ReadM Unit :=
  match anchor with
  | none => pure ()
  | some name => modify fun s =>
    let number := s.anchors.length
    { s with
      anchors := (name, number) :: s.anchors.filter (·.1 ≠ name)
      targets := (number, s.events.size) :: s.targets }

/-- An anchor and a tag, in either order, as far as they stand here, and where the first begins. -/
def properties : ReadM (Option (List Char) × Option (List Char × List Char) × Option Mark) := do
  let first ← peek
  match first.token with
  | .anchor name => do
    drop
    let second ← peek
    match second.token with
    | .tag handle suffix => do
      drop
      pure (some name, some (handle, suffix), some first.start)
    | _ => pure (some name, none, some first.start)
  | .tag handle suffix => do
    drop
    let second ← peek
    match second.token with
    | .anchor name => do
      drop
      pure (some name, some (handle, suffix), some first.start)
    | _ => pure (none, some (handle, suffix), some first.start)
  | _ => pure (none, none, none)

/-- The tag that a handle and a suffix stand for. -/
def resolveTag (mark : Mark) : Option (List Char × List Char) → ReadM (Option (List Char))
  | none => pure none
  | some ([], suffix) => pure (some suffix)
  | some (handle, suffix) => do
    match (← get).handles.lookup handle with
    | some expansion => pure (some (expansion ++ suffix))
    | none => throw ⟨.unknownTagHandle, mark⟩

/-- Tokens that end a block entry without a node. -/
def endsBlockEntry (inMapping : Bool) : Token → Bool
  | .blockEntry => !inMapping
  | .blockEnd => true
  | .key => inMapping
  | .value => inMapping
  | _ => false

/-- Tokens that end an entry of a sequence without a block of its own. -/
def endsIndentlessEntry : Token → Bool
  | .blockEntry => true
  | .blockEnd => true
  | .key => true
  | .value => true
  | _ => false

/-- A node that has an anchor or a tag may be left out. -/
def omitted (anchor : Option (List Char)) (tag : Option (List Char)) (begin? : Option Mark)
    (here : PlacedToken) : ReadM Unit :=
  match begin? with
  | some mark => do
    nameNext anchor
    emit (.scalar [] .plain tag) mark
  | none => throw ⟨.missingContent, here.start⟩

mutual

/-- Read a node. Blocks are only allowed outside brackets, and a sequence without indentation only
as the value of a mapping. -/
def node : Nat → Bool → Bool → ReadM Unit
  | 0, _, _ => do throw ⟨.endOfDocument, (← get).lexer.mark⟩
  | steps + 1, block, indentless => do
    let first ← peek
    match first.token with
    | .alias name =>
      match (← get).anchors.lookup name with
      | none => throw ⟨.unknownAlias, first.start⟩
      | some number =>
        emit (.alias number) first.start
        drop
    | _ =>
      let (anchor, written, begin?) ← properties
      let here ← peek
      let mark := begin?.getD here.start
      let tag ← resolveTag mark written
      match here.token with
      | .scalar text style =>
        nameNext anchor
        emit (.scalar text style (if tag = some ['!'] then none else tag)) mark
        drop
      | .flowSequenceStart =>
        nameNext anchor
        emit .sequenceStart mark
        drop
        flowSequence steps true
      | .flowMappingStart =>
        nameNext anchor
        emit .mappingStart mark
        drop
        flowMapping steps true
      | .blockSequenceStart =>
        if block then
          nameNext anchor
          emit .sequenceStart mark
          drop
          blockSequence steps
        else throw ⟨.missingContent, here.start⟩
      | .blockMappingStart =>
        if block then
          nameNext anchor
          emit .mappingStart mark
          drop
          blockMapping steps
        else throw ⟨.missingContent, here.start⟩
      | .blockEntry =>
        if indentless then
          nameNext anchor
          emit .sequenceStart mark
          indentlessSequence steps
        else omitted anchor tag begin? here
      | _ => omitted anchor tag begin? here

/-- Read the entries of an indented sequence. -/
def blockSequence : Nat → ReadM Unit
  | 0 => do throw ⟨.endOfDocument, (← get).lexer.mark⟩
  | steps + 1 => do
    let dash ← peek
    match dash.token with
    | .blockEntry =>
      drop
      if endsBlockEntry false (← peek).token then emitEmpty dash.stop else node steps true false
      blockSequence steps
    | .blockEnd =>
      emit .sequenceEnd dash.start
      drop
    | _ => throw ⟨.missingDash, dash.start⟩

/-- Read the entries of a sequence that stands at the indentation of its mapping. -/
def indentlessSequence : Nat → ReadM Unit
  | 0 => do throw ⟨.endOfDocument, (← get).lexer.mark⟩
  | steps + 1 => do
    let dash ← peek
    match dash.token with
    | .blockEntry =>
      drop
      if endsIndentlessEntry (← peek).token then emitEmpty dash.stop else node steps true false
      indentlessSequence steps
    | _ => emit .sequenceEnd dash.start

/-- Read the entries of an indented mapping. -/
def blockMapping : Nat → ReadM Unit
  | 0 => do throw ⟨.endOfDocument, (← get).lexer.mark⟩
  | steps + 1 => do
    let sign ← peek
    match sign.token with
    | .key =>
      drop
      if endsBlockEntry true (← peek).token then emitEmpty sign.stop else node steps true true
      blockValue steps
      blockMapping steps
    | .blockEnd =>
      emit .mappingEnd sign.start
      drop
    | _ => throw ⟨.missingKey, sign.start⟩

/-- Read the value of an entry of an indented mapping. -/
def blockValue : Nat → ReadM Unit
  | 0 => do throw ⟨.endOfDocument, (← get).lexer.mark⟩
  | steps + 1 => do
    let sign ← peek
    match sign.token with
    | .value =>
      drop
      if endsBlockEntry true (← peek).token then emitEmpty sign.stop else node steps true true
    | _ => emitEmpty sign.start

/-- Read the entries of a sequence between brackets. -/
def flowSequence : Nat → Bool → ReadM Unit
  | 0, _ => do throw ⟨.endOfDocument, (← get).lexer.mark⟩
  | steps + 1, first => do
    let here ← peek
    match here.token with
    | .flowSequenceEnd =>
      emit .sequenceEnd here.start
      drop
    | _ =>
      if first then flowItem steps
      else match here.token with
        | .flowEntry =>
          drop
          flowItem steps
        | _ => throw ⟨.missingCommaOrBracket, here.start⟩

/-- Read an entry of a sequence between brackets, which may be a mapping of one entry, or the
closing bracket behind a last comma. -/
def flowItem : Nat → ReadM Unit
  | 0 => do throw ⟨.endOfDocument, (← get).lexer.mark⟩
  | steps + 1 => do
    let here ← peek
    match here.token with
    | .key =>
      emit .mappingStart here.start
      drop
      flowPair steps
      flowSequence steps false
    | .flowSequenceEnd =>
      emit .sequenceEnd here.start
      drop
    | _ =>
      node steps false false
      flowSequence steps false

/-- Read the key and value of a mapping of one entry between brackets. -/
def flowPair : Nat → ReadM Unit
  | 0 => do throw ⟨.endOfDocument, (← get).lexer.mark⟩
  | steps + 1 => do
    let here ← peek
    match here.token with
    | .value | .flowEntry | .flowSequenceEnd =>
      drop
      emitEmpty here.stop
    | _ => node steps false false
    let sign ← peek
    match sign.token with
    | .value =>
      drop
      let content ← peek
      match content.token with
      | .flowEntry | .flowSequenceEnd => emitEmpty content.start
      | _ => node steps false false
    | _ => emitEmpty sign.start
    let stop ← peek
    emit .mappingEnd stop.start

/-- Read the entries of a mapping between braces. -/
def flowMapping : Nat → Bool → ReadM Unit
  | 0, _ => do throw ⟨.endOfDocument, (← get).lexer.mark⟩
  | steps + 1, first => do
    let here ← peek
    match here.token with
    | .flowMappingEnd =>
      emit .mappingEnd here.start
      drop
    | _ =>
      if first then flowField steps
      else match here.token with
        | .flowEntry =>
          drop
          flowField steps
        | _ => throw ⟨.missingCommaOrBrace, here.start⟩

/-- Read an entry of a mapping between braces, or the closing brace behind a last comma. -/
def flowField : Nat → ReadM Unit
  | 0 => do throw ⟨.endOfDocument, (← get).lexer.mark⟩
  | steps + 1 => do
    let here ← peek
    match here.token with
    | .key =>
      drop
      let name ← peek
      match name.token with
      | .value | .flowEntry | .flowMappingEnd => emitEmpty name.start
      | _ => node steps false false
      let sign ← peek
      match sign.token with
      | .value =>
        drop
        let content ← peek
        match content.token with
        | .flowEntry | .flowMappingEnd => emitEmpty content.start
        | _ => node steps false false
      | _ => emitEmpty sign.start
      flowMapping steps false
    | .flowMappingEnd =>
      emit .mappingEnd here.start
      drop
    | _ =>
      node steps false false
      let behind ← peek
      emitEmpty behind.start
      flowMapping steps false

end

/-- The handles that need no directive. -/
def standardHandles : List (List Char × List Char) :=
  [(['!'], ['!']), (['!', '!'], ['t', 'a', 'g', ':', 'y', 'a', 'm', 'l', '.', 'o', 'r', 'g', ',',
    '2', '0', '0', '2', ':'])]

/-- Read directives, of which one may give the version and each other a new handle. -/
def directives : Nat → Bool → List (List Char × List Char) → ReadM (List (List Char × List Char))
  | 0, _, handles => pure handles
  | steps + 1, versioned, handles => do
    let here ← peek
    match here.token with
    | .versionDirective major minor =>
      if versioned then throw ⟨.repeatedDirective, here.start⟩
      else if major ≠ 1 || (minor ≠ 1 && minor ≠ 2) then throw ⟨.badVersion, here.start⟩
      else
        drop
        directives steps true handles
    | .tagDirective handle expansion =>
      if (handles.lookup handle).isSome then throw ⟨.repeatedDirective, here.start⟩
      else
        drop
        directives steps versioned (handles ++ [(handle, expansion)])
    | _ => pure handles

/-- Whether a document with nothing in it stands here. -/
def isEmptyContent : Token → Bool
  | .versionDirective _ _ => true
  | .tagDirective _ _ => true
  | .documentStart => true
  | .documentEnd => true
  | .streamEnd => true
  | _ => false

/-- Read the first document. If the stream holds none, a void event stands for it. -/
def firstDocument (steps : Nat) : ReadM Unit := do
  let _ ← peek
  drop
  let here ← peek
  match here.token with
  | .streamEnd => emit .void here.start
  | .versionDirective _ _ | .tagDirective _ _ | .documentStart =>
    let declared ← directives steps false []
    modify fun s => { s with handles := declared ++ standardHandles }
    let marker ← peek
    match marker.token with
    | .documentStart =>
      drop
      let content ← peek
      if isEmptyContent content.token then emitEmpty content.start else node steps true false
      let _ ← peek
    | _ => throw ⟨.missingDocumentStart, marker.start⟩
  | _ =>
    node steps true false
    let _ ← peek

/-- Whether more than document ends comes behind the first document. -/
def isFollowed : Nat → ReadM Bool
  | 0 => pure true
  | steps + 1 => do
    match (← peek).token with
    | .documentEnd =>
      drop
      isFollowed steps
    | .streamEnd => pure false
    | _ => pure true

end ReadM

/-- Read a document from its text. -/
def Document.ofText (text : String) : Document :=
  let chars := text.toList
  let steps := 8 * chars.length + 64
  let start : EventReader := ⟨Lexer.start chars, #[], [], [], ReadM.standardHandles⟩
  match ReadM.firstDocument steps start with
  | .error fault s => ⟨s.events, s.targets, some fault, false⟩
  | .ok () s =>
    let followed := match ReadM.isFollowed steps s with
      | .ok followed _ => followed
      | .error _ _ => true
    ⟨s.events, s.targets, none, followed⟩

end Vendoring.Yaml
