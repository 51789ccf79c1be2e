import Brainfuck.Yaml.Lexer
import Brainfuck.Yaml.Tag

/-! # YAML events

What the tokens of a text mean, one after the other: where documents, sequences and mappings
start and end, the scalars, and the aliases.  The events are found with a stack of goals, each
of which is something that still has to be read.

* `Event` — the events;
* `Goal` — what has to be read;
* `Parser.reach` — reads on towards a goal;
* `eventsOf` — the events of a token sequence.
-/

namespace Brainfuck.Yaml

/-- What a text says, piece by piece.  The tag of a node is its full name, as it is written. -/
inductive Event where
  | documentStart
  | documentEnd
  | «alias» (name : String)
  | scalar (anchor tag : Option String) (text : LooseText) (plain : Bool)
  | sequenceStart (anchor tag : Option String)
  | sequenceEnd
  | mappingStart (anchor tag : Option String)
  | mappingEnd
  /-- The text does not go on in a way that means anything. -/
  | failure (e : Error)
  deriving DecidableEq, Repr

/-- The scalar that is not there: it is null. -/
def Event.empty : Event := .scalar none none ⟨[]⟩ true

/-- Something that has to be read. -/
inductive Goal where
  /-- The next document, or the end of the text. -/
  | document
  /-- The content of a document behind its start marker. -/
  | content
  | documentEnd
  /-- A node.  `block` allows block collections, and `unindented` a block sequence at the
  indentation of the mapping around it. -/
  | node (block unindented : Bool)
  /-- Items of a block sequence, and its end. -/
  | blockItems
  /-- Items of a block sequence that has no indentation of its own. -/
  | unindentedItems
  /-- Pairs of a block mapping, and its end. -/
  | blockKey
  | blockValue
  /-- Items of a flow sequence, and its end. -/
  | flowItems (first : Bool)
  /-- A pair among the items of a flow sequence. -/
  | pairKey
  | pairValue
  | pairEnd
  /-- Pairs of a flow mapping, and its end. -/
  | flowKey (first : Bool)
  | flowValue
  /-- The value of a key that has none. -/
  | noValue
  deriving DecidableEq, Repr

/-- Tokens still to be read, and what they are to be read for. -/
structure Parser where
  tokens : List Token
  /-- The goals, the nearest one first. -/
  goals : List Goal
  /-- What the handles of tags stand for. -/
  handles : List (String × String)

namespace Parser

/-- The token at hand; `none` at the end of the text. -/
def peek (p : Parser) : Except Error (Option Token) :=
  match p.tokens with
  | .failure e :: _ => .error e
  | tokens => .ok tokens.head?

def skip (p : Parser) : Parser := { p with tokens := p.tokens.tail }

/-- Puts goals in front of the others. -/
def aim (p : Parser) (goals : List Goal) : Parser := { p with goals := goals ++ p.goals }

/-! ## Nodes -/

/-- A tag as it is written: its handle, unless it is in angle brackets, and the rest. -/
abbrev WrittenTag := Option String × String

/-- Reads anchor and tag in front of a node, in any order. -/
def properties (p : Parser) : Except Error (Option String × Option WrittenTag × Parser) := do
  match ← p.peek with
  | some (.anchor name) =>
    let p := p.skip
    match ← p.peek with
    | some (.tag handle suffix) => return (some name, some (handle, suffix), p.skip)
    | _ => return (some name, none, p)
  | some (.tag handle suffix) =>
    let p := p.skip
    match ← p.peek with
    | some (.anchor name) => return (some name, some (handle, suffix), p.skip)
    | _ => return (none, some (handle, suffix), p)
  | _ => return (none, none, p)

def tagName (p : Parser) : Option WrittenTag → Except Error (Option String)
  | none => .ok none
  | some (none, suffix) => .ok (some suffix)
  | some (some handle, suffix) =>
    match p.handles.lookup handle with
    | some lead => .ok (some (lead ++ suffix))
    | none => .error .malformed

/-- Reads a node up to its first event.  A node of which only the properties are written is an
empty scalar. -/
def readNode (p : Parser) (block unindented : Bool) : Except Error (List Event × Parser) := do
  if let some (.alias name) ← p.peek then return ([.alias name], p.skip)
  let (anchor, written, p) ← p.properties
  let tag ← p.tagName written
  match ← p.peek with
  | some .blockEntry =>
    if unindented then return ([.sequenceStart anchor tag], p.aim [.unindentedItems])
  | some (.scalar text plain) => return ([.scalar anchor tag text plain], p.skip)
  | some .flowSequenceStart =>
    return ([.sequenceStart anchor tag], p.skip.aim [.flowItems true])
  | some .flowMappingStart => return ([.mappingStart anchor tag], p.skip.aim [.flowKey true])
  | some .blockSequenceStart =>
    if block then return ([.sequenceStart anchor tag], p.skip.aim [.blockItems])
  | some .blockMappingStart =>
    if block then return ([.mappingStart anchor tag], p.skip.aim [.blockKey])
  | _ => pure ()
  if anchor.isSome || tag.isSome then return ([.scalar anchor tag ⟨[]⟩ true], p)
  throw .malformed

/-- Aims at a node and then at another goal; the node is an empty scalar if one of the given
tokens comes next. -/
def nodeUnless (p : Parser) (ends : List Token) (node next : Goal) :
    Except Error (List Event × Parser) := do
  match ← p.peek with
  | some t =>
    if t ∈ ends then return ([.empty], p.aim [next]) else return ([], p.aim [node, next])
  | none => return ([], p.aim [node, next])

/-! ## Documents -/

/-- The handles that every document knows. -/
def standardHandles : List (String × String) := [("!", "!"), ("!!", Tag.standardLead)]

/-- Reads the directives in front of a document, `bound` of them at most; `versioned` says that
one gave a version. -/
def directives : (bound : Nat) → (versioned : Bool) → Parser → Except Error Parser
  | 0, _, _ => .error .malformed
  | bound + 1, versioned, p => do
    match ← p.peek with
    | some (.directive (.version major)) =>
      if versioned || major != 1 then throw .malformed else directives bound true p.skip
    | some (.directive (.tagHandle handle lead)) =>
      if (p.handles.lookup handle).isSome then throw .malformed
      else directives bound versioned { p.skip with handles := p.handles ++ [(handle, lead)] }
    | some (.directive .unknown) => directives bound versioned p.skip
    | _ => return { p with handles := p.handles ++ standardHandles }

/-- Reads the start of the next document, if there is one.  In front of it there may be end
markers and directives. -/
def readDocument (p : Parser) : Except Error (List Event × Parser) := do
  let p := { p with tokens := p.tokens.dropWhile (· == Token.documentEnd) }
  match ← p.peek with
  | none => return ([], p)
  | some _ =>
    let p ← directives p.tokens.length false { p with handles := [] }
    match ← p.peek with
    | some .documentStart => return ([.documentStart], p.skip.aim [.content])
    | _ => throw Error.malformed

def endsDocument : Option Token → Bool
  | none => true
  | some (.directive _) => true
  | some .documentStart => true
  | some .documentEnd => true
  | _ => false

/-! ## Goals -/

/-- Reads on towards a goal: the events that come of it, and what is left to be read. -/
def reach (p : Parser) : Goal → Except Error (List Event × Parser)
  | .document => p.readDocument
  | .content => do
    if endsDocument (← p.peek) then return ([.empty], p.aim [.documentEnd])
    else return ([], p.aim [.node true false, .documentEnd])
  | .documentEnd => do
    match ← p.peek with
    | some .documentEnd => return ([.documentEnd], p.skip.aim [.document])
    | _ => return ([.documentEnd], p.aim [.document])
  | .node block unindented => p.readNode block unindented
  | .blockItems => do
    match ← p.peek with
    | some .blockEntry => p.skip.nodeUnless [.blockEntry, .blockEnd] (.node true false) .blockItems
    | some .blockEnd => return ([.sequenceEnd], p.skip)
    | _ => throw .malformed
  | .unindentedItems => do
    match ← p.peek with
    | some .blockEntry =>
      p.skip.nodeUnless [.blockEntry, .key, .value, .blockEnd] (.node true false) .unindentedItems
    | _ => return ([.sequenceEnd], p)
  | .blockKey => do
    match ← p.peek with
    | some .key => p.skip.nodeUnless [.key, .value, .blockEnd] (.node true true) .blockValue
    | some .blockEnd => return ([.mappingEnd], p.skip)
    | _ => throw .malformed
  | .blockValue => do
    match ← p.peek with
    | some .value => p.skip.nodeUnless [.key, .value, .blockEnd] (.node true true) .blockKey
    | _ => return ([.empty], p.aim [.blockKey])
  | .flowItems first => do
    if (← p.peek) == some .flowSequenceEnd then return ([.sequenceEnd], p.skip)
    let p ← if first then pure p
      else if (← p.peek) == some .flowEntry then pure p.skip
      else throw .malformed
    match ← p.peek with
    | some .key => return ([.mappingStart none none], p.skip.aim [.pairKey, .flowItems false])
    | some .flowSequenceEnd => return ([.sequenceEnd], p.skip)
    | _ => return ([], p.aim [.node false false, .flowItems false])
  | .pairKey => p.nodeUnless [.value, .flowEntry, .flowSequenceEnd] (.node false false) .pairValue
  | .pairValue => do
    match ← p.peek with
    | some .value =>
      p.skip.nodeUnless [.flowEntry, .flowSequenceEnd] (.node false false) .pairEnd
    | _ => return ([.empty], p.aim [.pairEnd])
  | .pairEnd => do
    let _ ← p.peek
    return ([.mappingEnd], p)
  | .flowKey first => do
    if (← p.peek) == some .flowMappingEnd then return ([.mappingEnd], p.skip)
    let p ← if first then pure p
      else if (← p.peek) == some .flowEntry then pure p.skip
      else throw .malformed
    match ← p.peek with
    | some .key =>
      p.skip.nodeUnless [.value, .flowEntry, .flowMappingEnd] (.node false false) .flowValue
    | some .flowMappingEnd => return ([.mappingEnd], p.skip)
    | _ => return ([], p.aim [.node false false, .noValue])
  | .flowValue => do
    match ← p.peek with
    | some .value =>
      p.skip.nodeUnless [.flowEntry, .flowMappingEnd] (.node false false) (.flowKey false)
    | _ => return ([.empty], p.aim [.flowKey false])
  | .noValue => do
    let _ ← p.peek
    return ([.empty], p.aim [.flowKey false])

/-- Reads on towards the goals until there are none, in `bound` steps at most; `done` are the
events before, in reverse. -/
def run : (bound : Nat) → (done : List Event) → Parser → List Event
  | 0, done, _ => (.failure .malformed :: done).reverse
  | bound + 1, done, p =>
    match p.goals with
    | [] => done.reverse
    | goal :: goals =>
      match { p with goals := goals }.reach goal with
      | .error e => (.failure e :: done).reverse
      | .ok (events, p) => run bound (events.reverse ++ done) p

/-- The start of a text.  Only its first document needs no start marker. -/
def start (tokens : List Token) : Except Error (List Event × Parser) := do
  let p : Parser := { tokens := tokens, goals := [], handles := standardHandles }
  match ← p.peek with
  | none => return ([], p)
  | some (.directive _) => return ([], p.aim [.document])
  | some .documentStart => return ([], p.aim [.document])
  | _ => return ([.documentStart], p.aim [.node true false, .documentEnd])

end Parser

/-- The events of a token sequence.  When the tokens do not fit together, the last event is a
failure, behind those that were found before it was met.  Of any eight steps one takes a
token. -/
def eventsOf (tokens : List Token) : List Event :=
  match Parser.start tokens with
  | .error e => [.failure e]
  | .ok (events, p) => p.run (8 * tokens.length + 8) events.reverse

end Brainfuck.Yaml
