import Brainfuck.Calendar
import Brainfuck.Number.Numeral
import Brainfuck.Number.Shortest
import Brainfuck.Text.Quoted
import Brainfuck.Yaml.Token

/-! # YAML values

The values of a document and how they are shown.  A collection is a value that leads to its
contents, so that it can be reached from several places and even from within itself; where it
is shown inside itself, dots stand for it.

* `Value` — a single value;
* `Contents`, `Document` — what the collections of a document hold;
* `Document.literal` — the text of a value with quotes and names, as errors show it;
* `Document.text` — the text that a value gives where a text is asked for.
-/

namespace Brainfuck.Yaml

inductive Collection where
  | list
  | mapping
  | set
  deriving DecidableEq, Repr

/-- A value.  A collection is the number of the node that it came from. -/
inductive Value where
  | null
  | boolean (b : Bool)
  | integer (n : Int)
  | real (x : Binary64)
  /-- Not a number.  There is one such constant, and besides it every node that comes to such a
  value has one of its own. -/
  | notANumber (node : Option Nat)
  | text (s : LooseText)
  | bytes (bs : List UInt8)
  | date (d : Date)
  | moment (m : Moment)
  | collection (kind : Collection) (node : Nat)
  deriving DecidableEq, Repr

namespace Value

def isKey : Value → Bool
  | collection .. => false
  | _ => true

/-- The number that a value counts as: booleans are 0 and 1. -/
def number? : Value → Option Int
  | boolean b => some (if b then 1 else 0)
  | integer n => some n
  | real x =>
    match x.truncate with
    | some n => if x.same (Binary64.ofScaled n 0 false) then some n else none
    | none => none
  | _ => none

/-- Whether two values are the same key: numbers are by their value, whatever their kind. -/
def sameKey (a b : Value) : Bool :=
  match a.number?, b.number? with
  | some m, some n => m == n
  | none, none =>
    match a, b with
    | real x, real y => x.same y
    | a, b => a == b
  | _, _ => false

end Value

inductive Contents where
  | items (values : List Value)
  | pairs (entries : List (Value × Value))
  /-- A list of pairs. -/
  | tuples (entries : List (Value × Value))
  deriving DecidableEq, Repr

/-- Puts a value under a key; a key that is there keeps its place. -/
def Contents.put (entries : List (Value × Value)) (key value : Value) : List (Value × Value) :=
  if entries.any fun (k, _) => k.sameKey key then
    entries.map fun (k, v) => if k.sameKey key then (k, value) else (k, v)
  else entries ++ [(key, value)]

/-- A value and the contents of the collections in it. -/
structure Document where
  root : Value
  contents : Array (Option Contents)

namespace Document

def contentsOf (d : Document) (node : Nat) : Contents :=
  match d.contents[node]? with
  | some (some c) => c
  | _ => .items []

/-- What stands for a collection inside itself. -/
def dots : Collection → String
  | .list => "[...]"
  | .mapping => "\x7b...\x7d"
  | .set => "set(...)"

def booleanName (b : Bool) : String :=
  if b then "True" else "False"

/-- The text of an integer, if it is not too long. -/
def integerText (n : Int) : Except Error String :=
  match Numeral.write? n with
  | some s => .ok s
  | none => .error .integerTooLong

def commas (texts : List String) : String :=
  ", ".intercalate texts

/-- How deeply collections may be nested where they are shown, with one call for each. -/
def maxShown : Nat := maxCalls - 16

/-- The text of a value with quotes around texts and names for dates.  `around` are the
collections around it, and `bound` limits the nesting. -/
def literalWithin (d : Document) : (bound : Nat) → (around : List Nat) → Value →
    Except Error String
  | _, _, .null => .ok "None"
  | _, _, .boolean b => .ok (booleanName b)
  | _, _, .integer n => integerText n
  | _, _, .real x => .ok x.text
  | _, _, .notANumber _ => .ok Binary64.nan.text
  | _, _, .text s => .ok s.quoted
  | _, _, .bytes bs => .ok (String.ofList (Text.quoteBytes bs))
  | _, _, .date t => .ok t.constructorText
  | _, _, .moment m => .ok m.constructorText
  | 0, _, .collection .. => .error .nestedTooDeep
  | bound + 1, around, .collection kind node =>
    if around.contains node then .ok (dots kind)
    else
      let inner := d.literalWithin bound (node :: around)
      let pair (entry : Value × Value) (middle : String) : Except Error String := do
        let key ← inner entry.1
        let value ← inner entry.2
        return key ++ middle ++ value
      match kind, d.contentsOf node with
      | .list, .items values => do
        return "[" ++ commas (← values.mapM inner) ++ "]"
      | .set, .items [] => .ok "set()"
      | .set, .items values => do
        return "\x7b" ++ commas (← values.mapM inner) ++ "\x7d"
      | .mapping, .items _ => .ok "\x7b\x7d"
      | .list, .tuples entries => do
        let texts ← entries.mapM fun entry => pair entry ", "
        return "[" ++ commas (texts.map fun t => "(" ++ t ++ ")") ++ "]"
      | _, .tuples entries => do
        return "\x7b" ++ commas (← entries.mapM fun entry => pair entry ": ") ++ "\x7d"
      | _, .pairs entries => do
        return "\x7b" ++ commas (← entries.mapM fun entry => pair entry ": ") ++ "\x7d"

/-- The text of a value as errors show it. -/
def literal (d : Document) (v : Value) : Except Error String :=
  d.literalWithin maxShown [] v

/-- The text that a value gives where a text is asked for: texts and dates as they are. -/
def text (d : Document) (v : Value) : Except Error LooseText :=
  match v with
  | .text s => .ok s
  | .date t => .ok (.ofString t.text)
  | .moment m => .ok (.ofString m.text)
  | v => (d.literal v).map .ofString

end Document

end Brainfuck.Yaml
