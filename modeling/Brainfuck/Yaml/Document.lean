import Brainfuck.Number.Decimal
import Brainfuck.Text.Base64
import Brainfuck.Yaml.Members
import Brainfuck.Yaml.Merge

/-! # From nodes to values

The value of each node, as its tag says.  A scalar has its value at once; a collection is
filled later, after everything that was met before it, so that values are made in the order
of their distance from the root.

* `scalarValue` — the value of a text under a tag;
* `Maker` — the values made so far, and the collections that are still to be filled;
* `Yaml.read` — the document of a text.
-/

namespace Brainfuck.Yaml

/-! ## Scalars -/

def dropLows (cs : List Char) : List Char :=
  cs.filter (· != '_')

/-- Splits a number into its sign and the rest; there has to be something. -/
def splitSign : List Char → Except Error (Bool × List Char)
  | [] => .error .emptyNumber
  | '-' :: rest => .ok (true, rest)
  | '+' :: rest => .ok (false, rest)
  | cs => .ok (false, cs)

/-- The parts of a text between colons. -/
def colonParts (cs : List Char) : List (List Char) :=
  let (done, last) := cs.foldl
    (fun (done, part) c => if c = ':' then (part.reverse :: done, []) else (done, c :: part))
    ([], [])
  (last.reverse :: done).reverse

/-- The integer of a text without underscores and sign. -/
def unsignedInteger (cs : List Char) : Option Int :=
  match cs with
  | ['0'] => some 0
  | '0' :: 'b' :: rest => Numeral.readBase? 2 rest
  | '0' :: 'x' :: rest => Numeral.readBase? 16 rest
  | '0' :: _ => Numeral.readBase? 8 cs
  | _ =>
    if cs.contains ':' then
      (colonParts cs).foldlM (fun n part => (Numeral.read? part).map fun d => n * 60 + d) 0
    else Numeral.read? cs

def integerValue (cs : List Char) : Except Error Value := do
  let (negative, cs) ← splitSign (dropLows cs)
  if cs.isEmpty then throw .emptyNumber
  match unsignedInteger cs with
  | none => throw .badNumber
  | some n => return .integer (if negative then -n else n)

/-- The sum of the parts of a number in base sixty, from the last one on; `weight` is what
the part at hand counts. -/
def sumSixties (weight : Nat) (sum : Binary64) : List (List Char) → Except Error Binary64
  | [] => .ok sum
  | part :: rest =>
    match Binary64.read? part with
    | none => .error .badNumber
    | some x =>
      let factor := Binary64.ofNat weight
      if factor.isInfinite then .error .numberOverflow
      else sumSixties (weight * 60) (sum.add (x.mul factor)) rest

/-- The floating-point number of a text without underscores, capitals and sign, `none` for the
constant that is not a number. -/
def unsignedReal (cs : List Char) : Except Error (Option Binary64) :=
  if cs = ".inf".toList then .ok (some (.infinite false))
  else if cs = ".nan".toList then .ok none
  else if cs.contains ':' then
    let parts := colonParts cs
    if parts.any fun part => (Binary64.read? part).isNone then .error .badNumber
    else (sumSixties 1 (.zero false) parts.reverse).map some
  else
    match Binary64.read? cs with
    | some x => .ok (some x)
    | none => .error .badNumber

/-- The floating-point number of a text that stands at a node. -/
def realValue (id : Nat) (cs : List Char) : Except Error Value := do
  let (negative, cs) ← splitSign ((dropLows cs).map Char.toLower)
  match ← unsignedReal cs with
  | none => return .notANumber none
  | some .nan => return .notANumber (some id)
  | some x => return .real (if negative then x.neg else x)

def booleanValue (cs : List Char) : Except Error Value :=
  match String.ofList (cs.map Char.toLower) with
  | "yes" => .ok (.boolean true)
  | "true" => .ok (.boolean true)
  | "on" => .ok (.boolean true)
  | "no" => .ok (.boolean false)
  | "false" => .ok (.boolean false)
  | "off" => .ok (.boolean false)
  | _ => .error .badBoolean

/-- The date or moment of a timestamp as it is written. -/
def timestampOf (t : TimestampText) : Option Value := do
  let date ← Date.of? t.year t.month t.day
  match t.time with
  | none => return .date date
  | some time =>
    let six := (time.fraction ++ List.replicate 6 '0').take 6
    let moment ← Moment.of? date time.hour time.minute time.second (TimestampText.value six)
      time.offset
    return .moment moment

/-- The date or moment of a text, which may have a line end behind it. -/
def timestampValue (cs : List Char) : Except Error Value :=
  let cs := if cs.getLast? = some '\n' then cs.dropLast else cs
  match TimestampText.read? cs with
  | none => .error .badTimestamp
  | some t =>
    match timestampOf t with
    | some v => .ok v
    | none => .error .impossibleTime

def binaryValue (cs : List Char) : Except Error Value :=
  if cs.all fun c => c.toNat < 0x80 then
    match Base64.decode? cs with
    | some bytes => .ok (.bytes bytes)
    | none => .error .malformed
  else .error .malformed

/-- The error at a text that is no value of its tag because it does not consist of characters. -/
def notCharacters : Tag → Error
  | .boolean => .badBoolean
  | .integer => .badNumber
  | .real => .badNumber
  | .timestamp => .badTimestamp
  | _ => .malformed

/-- The value of a text that stands at a node, under the tag of a scalar. -/
def scalarValue (tag : Tag) (id : Nat) (text : LooseText) : Except Error Value :=
  match tag, text.chars? with
  | .null, _ => .ok .null
  | .text, _ => .ok (.text text)
  | .boolean, some cs => booleanValue cs
  | .integer, some cs => integerValue cs
  | .real, some cs => realValue id cs
  | .binary, some cs => binaryValue cs
  | .timestamp, some cs => timestampValue cs
  | tag, _ => .error (notCharacters tag)

/-! ## Documents -/

/-- Values made so far, by the number of their node, and the collections still to be filled,
in reverse. -/
structure Maker where
  graph : Graph
  values : Array (Option Value)
  contents : Array (Option Contents)
  pending : List Nat

namespace Maker

def start (g : Graph) : Maker where
  graph := g
  values := Array.replicate g.size none
  contents := Array.replicate g.size none
  pending := []

/-- The kind of collection that a tag asks for. -/
def collectionOf? : Tag → Option Collection
  | .sequence => some .list
  | .orderedPairs => some .list
  | .pairs => some .list
  | .mapping => some .mapping
  | .set => some .set
  | _ => none

/-- The value of a node; a collection is left to be filled. -/
def make (m : Maker) (id : Nat) : Except Error (Value × Maker) :=
  match m.values[id]? with
  | some (some v) => .ok (v, m)
  | _ => do
    let tag := m.graph.tagOf id
    match collectionOf? tag with
    | some kind =>
      let v := Value.collection kind id
      return (v, { m with
        values := m.values.setIfInBounds id (some v), pending := id :: m.pending })
    | none =>
      if tag = .merge ∨ tag = .defaultValue ∨ tag = .unknown then throw .malformed
      let text ← m.graph.scalarText maxChain id
      if tag = .timestamp ∧ (m.graph.pairsOf? id).isSome then throw .timestampOfMapping
      let v ← scalarValue tag id text
      return (v, { m with values := m.values.setIfInBounds id (some v) })

/-- The values of nodes; `done` are those before, in reverse. -/
def makeAll (m : Maker) (done : List Value) : List Nat → Except Error (List Value × Maker)
  | [] => .ok (done.reverse, m)
  | id :: rest => do
    let (v, m) ← m.make id
    makeAll m (v :: done) rest

/-- The pairs of a mapping; a key has to be a value that can be one. -/
def makePairs (m : Maker) (done : List (Value × Value)) :
    List (Nat × Nat) → Except Error (List (Value × Value) × Maker)
  | [] => .ok (done, m)
  | (key, value) :: rest => do
    let (k, m) ← m.make key
    if !k.isKey then throw .malformed
    let (v, m) ← m.make value
    makePairs m (Contents.put done k v) rest

/-- The pairs of a list of mappings that have one pair each. -/
def makeTuples (m : Maker) (done : List (Value × Value)) :
    List Nat → Except Error (List (Value × Value) × Maker)
  | [] => .ok (done.reverse, m)
  | id :: rest =>
    match m.graph[id]? with
    | some ⟨_, .mapping [(key, value)]⟩ => do
      let (k, m) ← m.make key
      let (v, m) ← m.make value
      makeTuples m ((k, v) :: done) rest
    | _ => .error .malformed

/-- The items of a sequence node. -/
def itemsOf (m : Maker) (id : Nat) : Except Error (List Nat) :=
  match m.graph[id]? with
  | some ⟨_, .sequence items⟩ => .ok items
  | _ => .error .malformed

/-- The entries of a mapping node, after its merge keys. -/
def entriesOf (m : Maker) (id : Nat) : Except Error (List (Value × Value) × Maker) := do
  let graph ← m.graph.merged id
  makePairs { m with graph := graph } [] ((graph.pairsOf? id).getD [])

def fill (m : Maker) (id : Nat) : Except Error Maker := do
  let (contents, m) ← match m.graph.tagOf id with
    | .sequence => do
      let (values, m) ← m.makeAll [] (← m.itemsOf id)
      pure (Contents.items values, m)
    | .mapping => do
      let (entries, m) ← m.entriesOf id
      pure (Contents.pairs entries, m)
    | .set => do
      let (entries, m) ← m.entriesOf id
      pure (Contents.items (membersInOrder (entries.map Prod.fst)), m)
    | _ => do
      let (entries, m) ← m.makeTuples [] (← m.itemsOf id)
      pure (Contents.tuples entries, m)
  return { m with contents := m.contents.setIfInBounds id (some contents) }

/-- Fills the collections that wait, then those that were met on the way, and so on, `bound`
rounds of them at most. -/
def fillAll : (bound : Nat) → Maker → Except Error Maker
  | 0, m => .ok m
  | bound + 1, m =>
    if m.pending.isEmpty then .ok m
    else do
      let waiting := m.pending.reverse
      let m ← waiting.foldlM fill { m with pending := [] }
      fillAll bound m

end Maker

/-- The document of a graph.  No collection waits twice, so there are no more rounds than
nodes. -/
def documentValue (g : Graph) (root : Nat) : Except Error Document := do
  let (v, m) ← (Maker.start g).make root
  let m ← m.fillAll (g.size + 1)
  return ⟨v, m.contents⟩

/-- The document of a text; an empty text is null. -/
def read (s : Source) : Except Error Document := do
  match ← documentOf (eventsOf (tokensOf s)) with
  | none => return ⟨.null, #[]⟩
  | some (root, g) => documentValue g root

end Brainfuck.Yaml
