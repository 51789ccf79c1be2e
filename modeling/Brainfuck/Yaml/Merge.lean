import Brainfuck.Yaml.Node

/-! # Merge keys

A merge key of a mapping brings in the pairs of other mappings, in front of its own.  Merging
changes the nodes for good: a mapping that was merged has no merge keys any more, and the key of a
default value becomes an ordinary text wherever it stands.  Mappings may merge one another in a
circle; then a mapping that is in the course of being merged counts with the pairs that it has at
that moment.

* `Graph.merged` — the nodes after a mapping was merged;
* `Graph.scalarText` — the text of a node, which for a mapping is its default value.
-/

namespace Brainfuck.Yaml

/-- Pairs of a mapping, by the numbers of their nodes. -/
abbrev NodePairs := List (Nat × Nat)

/-- How often nodes may lead into one another, with one call for each. -/
def maxChain : Nat := maxCalls - 20

namespace Graph

def tagOf (g : Graph) (id : Nat) : Tag :=
  match g[id]? with
  | some n => n.tag
  | none => .unknown

/-- The pairs of a mapping; `none` for another node. -/
def pairsOf? (g : Graph) (id : Nat) : Option NodePairs :=
  match g[id]? with
  | some ⟨_, .mapping pairs⟩ => some pairs
  | _ => none

def setPairs (g : Graph) (id : Nat) (pairs : NodePairs) : Graph :=
  g.modify id fun n => { n with content := .mapping pairs }

/-- Makes an ordinary text of a key, if it is that of a default value. -/
def ordinaryKey (g : Graph) (id : Nat) : Graph :=
  if g.tagOf id = .defaultValue then g.modify id fun n => { n with tag := .text } else g

/-- The text of a node where a scalar is asked for; a mapping gives its default value. -/
def scalarText (g : Graph) : (bound : Nat) → (id : Nat) → Except Error LooseText
  | 0, _ => .error .nestedTooDeep
  | bound + 1, id =>
    match g[id]? with
    | some ⟨_, .scalar text⟩ => .ok text
    | some ⟨_, .mapping pairs⟩ =>
      match pairs.find? fun (key, _) => g.tagOf key == .defaultValue with
      | some (_, value) => scalarText g bound value
      | none => .error .malformed
    | _ => .error .malformed

/-- The pairs that a node brings in as the value of a merge key, with the nodes after `merge` was
done for each mapping: those of a mapping, or those of a list of mappings, the last one first. -/
def broughtIn (merge : Graph → Nat → Except Error Graph) (g : Graph) (value : Nat) :
    Except Error (NodePairs × Graph) :=
  let ofMapping (g : Graph) (id : Nat) : Except Error (NodePairs × Graph) := do
    if (g.pairsOf? id).isNone then throw .malformed
    let g ← merge g id
    return ((g.pairsOf? id).getD [], g)
  match g[value]? with
  | some ⟨_, .sequence items⟩ =>
    items.foldlM
      (fun (pairs, g) id => do
        let (more, g) ← ofMapping g id
        return (more ++ pairs, g))
      ([], g)
  | _ => ofMapping g value

/-- Takes the merge keys out of a mapping, `bound` of them at most, and puts in front what they
bring in; `done` is what those before brought in. -/
def mergeKeys (merge : Graph → Nat → Except Error Graph) (id : Nat) :
    (bound : Nat) → (done : NodePairs) → Graph → Except Error Graph
  | 0, _, g => .ok g
  | bound + 1, done, g =>
    let pairs := (g.pairsOf? id).getD []
    let before := pairs.takeWhile fun (key, _) => g.tagOf key != .merge
    let g := before.foldl (fun g (key, _) => g.ordinaryKey key) g
    match pairs.drop before.length with
    | [] => .ok (if done.isEmpty then g else g.setPairs id (done ++ pairs))
    | (_, value) :: after => do
      let (more, g) ← broughtIn merge (g.setPairs id (before ++ after)) value
      mergeKeys merge id bound (done ++ more) g

/-- The nodes after a mapping was merged; at most `bound` mappings may lead into one another. -/
def mergedWithin : (bound : Nat) → Graph → (id : Nat) → Except Error Graph
  | 0, _, _ => .error .nestedTooDeep
  | bound + 1, g, id =>
    mergeKeys (mergedWithin bound) id (((g.pairsOf? id).getD []).length + 1) [] g

/-- The nodes after a mapping was merged. -/
def merged (g : Graph) (id : Nat) : Except Error Graph :=
  if (g.pairsOf? id).isSome then g.mergedWithin maxChain id else .error .malformed

end Graph

end Brainfuck.Yaml
