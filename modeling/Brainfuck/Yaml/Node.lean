import Brainfuck.Yaml.Event

/-! # YAML nodes

The nodes of a document: scalars, sequences and mappings, each with a tag.  Nodes are
numbered, so that an alias can lead back to a node that is also somewhere else, even to one
around it.

* `Graph` — the nodes by number;
* `Reader` — the events still to be read and the nodes made so far;
* `documentOf` — the single document of an event sequence.
-/

namespace Brainfuck.Yaml

/-- What a node holds: a text, or the numbers of other nodes. -/
inductive Content where
  | scalar (text : LooseText)
  | sequence (items : List Nat)
  | mapping (pairs : List (Nat × Nat))
  deriving DecidableEq, Repr

structure Node where
  tag : Tag
  content : Content
  deriving DecidableEq, Repr

/-- The nodes of a document by number. -/
abbrev Graph := Array Node

/-- Events still to be read, and what was made of those before. -/
structure Reader where
  events : List Event
  nodes : Graph
  anchors : List (String × Nat)

namespace Reader

def skip (r : Reader) : Reader := { r with events := r.events.tail }

/-- The error at an event that cannot stand here. -/
def unexpected (r : Reader) : Error :=
  match r.events with
  | .failure e :: _ => e
  | _ => .malformed

/-- Gives a node that was added its content. -/
def fill (r : Reader) (id : Nat) (content : Content) : Reader :=
  { r with nodes := r.nodes.modify id fun n => { n with content := content } }

/-- The tag of a scalar: the one it is written with, or the one that its text has when it is
plain.  A mark alone makes any scalar count as plain. -/
def scalarTag (name : Option String) (text : LooseText) (plain : Bool) : Tag :=
  match name with
  | none => if plain then .ofPlain text else .text
  | some "!" => .ofPlain text
  | some name => .ofName name

def collectionTag (name : Option String) (default : Tag) : Tag :=
  match name with
  | none => default
  | some "!" => default
  | some name => .ofName name

/-- Adds a node under its anchor, if it has one; an anchor can be given only once. -/
def add (r : Reader) (anchor : Option String) (n : Node) : Except Error (Nat × Reader) :=
  let id := r.nodes.size
  let r := { r with nodes := r.nodes.push n }
  match anchor with
  | none => .ok (id, r)
  | some name =>
    if (r.anchors.lookup name).isSome then .error .malformed
    else .ok (id, { r with anchors := (name, id) :: r.anchors })

/-- How deeply collections may be nested: each takes two calls, one for the node and one for the
collection that it is. -/
def maxDepth : Nat := (maxCalls - 24) / 2

mutual

/-- Reads a node.  `bound` limits the recursion and `depth` counts the collections around the
node. -/
def readNode (bound depth : Nat) (r : Reader) : Except Error (Nat × Reader) :=
  match bound with
  | 0 => .error .malformed
  | bound + 1 =>
    match r.events with
    | .alias name :: _ =>
      match r.anchors.lookup name with
      | some id => .ok (id, r.skip)
      | none => .error .malformed
    | events => do
      if maxDepth < depth then throw .nestedTooDeep
      match events with
      | .scalar anchor name text plain :: _ =>
        r.skip.add anchor ⟨scalarTag name text plain, .scalar text⟩
      | .sequenceStart anchor name :: _ =>
        let (id, r) ← r.skip.add anchor ⟨collectionTag name .sequence, .sequence []⟩
        let (items, r) ← readItems bound (depth + 1) [] r
        return (id, r.fill id (.sequence items))
      | .mappingStart anchor name :: _ =>
        let (id, r) ← r.skip.add anchor ⟨collectionTag name .mapping, .mapping []⟩
        let (pairs, r) ← readPairs bound (depth + 1) [] r
        return (id, r.fill id (.mapping pairs))
      | _ => throw r.unexpected

/-- Reads the items of a sequence and its end; `items` are those before, in reverse. -/
def readItems (bound depth : Nat) (items : List Nat) (r : Reader) :
    Except Error (List Nat × Reader) :=
  match bound with
  | 0 => .error .malformed
  | bound + 1 =>
    match r.events with
    | .sequenceEnd :: _ => .ok (items.reverse, r.skip)
    | _ => do
      let (id, r) ← readNode bound depth r
      readItems bound depth (id :: items) r

/-- Reads the pairs of a mapping and its end; `pairs` are those before, in reverse. -/
def readPairs (bound depth : Nat) (pairs : List (Nat × Nat)) (r : Reader) :
    Except Error (List (Nat × Nat) × Reader) :=
  match bound with
  | 0 => .error .malformed
  | bound + 1 =>
    match r.events with
    | .mappingEnd :: _ => .ok (pairs.reverse, r.skip)
    | _ => do
      let (key, r) ← readNode bound depth r
      let (value, r) ← readNode bound depth r
      readPairs bound depth ((key, value) :: pairs) r

end

end Reader

/-- The nodes of the single document of an event sequence and the number of its root; `none`
when there is no document. -/
def documentOf (events : List Event) : Except Error (Option (Nat × Graph)) :=
  match events with
  | [] => .ok none
  | .documentStart :: events => do
    let (root, r) ← Reader.readNode (2 * events.length + 2) 0 ⟨events, #[], []⟩
    match r.events with
    | [.documentEnd] => return some (root, r.nodes)
    | .documentEnd :: _ => throw r.skip.unexpected
    | _ => throw r.unexpected
  | .failure e :: _ => .error e
  | _ => .error .malformed

end Brainfuck.Yaml
