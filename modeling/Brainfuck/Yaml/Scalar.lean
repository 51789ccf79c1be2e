import Brainfuck.Yaml.Cursor

/-! # YAML scalars as they are written

The texts of the four ways to write a scalar: plain, in single and in double quotes, and as
a block.  Each reader starts behind the mark that says which way it is.

* `plainText` — plain scalars, which may go on over several lines;
* `quotedText` — quoted scalars, with line folding and, in double quotes, escapes;
* `blockText` — literal and folded blocks.
-/

namespace Brainfuck.Yaml

/-! ## Plain scalars -/

/-- How many characters a plain scalar goes on for on its line: up to a gap, a colon that
ends a key, or in a flow collection one of its marks. -/
def plainRun (inFlow : Bool) : (count : Nat) → List Char → Nat
  | count, [] => count
  | count, c :: rest =>
    let colonEnds :=
      endsWord rest.head? || (inFlow && rest.head?.any fun d => ",[]\x7b\x7d".toList.contains d)
    if isGap c || isBreak c || (c == ':' && colonEnds) ||
        (inFlow && ",?[]\x7b\x7d".toList.contains c) then count
    else plainRun inFlow (count + 1) rest

/-- Reads spaces and further line ends behind a first one, `bound` characters at most.  The
line ends come in reverse; the flag says that a document marker was met. -/
def plainBreaks : (bound : Nat) → List Char → Cursor → List Char × Bool × Cursor
  | 0, breaks, c => (breaks, false, c)
  | bound + 1, breaks, c =>
    if c.peek == some ' ' then plainBreaks bound breaks c.next
    else
      match c.lineBreak? with
      | none => (breaks, false, c)
      | some (b, after) =>
        if after.atDocumentMarker then (b :: breaks, true, after)
        else plainBreaks bound (b :: breaks) after

/-- Reads what stands between two parts of a plain scalar: what it counts as, whether there
was a line end, and the position behind it.  It counts as nothing where the scalar ends. -/
def plainSpaces (c : Cursor) : List Char × Bool × Cursor :=
  let (spaces, c) := c.takeWhile (· == ' ')
  match c.lineBreak? with
  | none => (spaces, false, c)
  | some (b, after) =>
    if after.atDocumentMarker then ([], true, after)
    else
      let (breaks, marker, after) := plainBreaks (after.size + 1) [] after
      if marker then ([], true, after)
      else if b != '\n' then (b :: breaks.reverse, true, after)
      else if breaks.isEmpty then ([' '], true, after)
      else (breaks.reverse, true, after)

/-- Reads a plain scalar that goes on only on lines indented by `indent`.  `done` is what was
read, in reverse, `spaces` what was passed since, and `keyAllowed` whether a key may follow. -/
def plainFrom (inFlow : Bool) (indent : Int) : (bound : Nat) → (done spaces : List Char) →
    (keyAllowed : Bool) → Cursor → List Char × Bool × Cursor
  | 0, done, _, keyAllowed, c => (done.reverse, keyAllowed, c)
  | bound + 1, done, spaces, keyAllowed, c =>
    if c.peek == some '#' then (done.reverse, keyAllowed, c)
    else
      let count := plainRun inFlow 0 c.rest
      if count = 0 then (done.reverse, keyAllowed, c)
      else
        let done := (c.rest.take count).reverse ++ (spaces.reverse ++ done)
        let (spaces, broken, c) := plainSpaces (c.advance count)
        if spaces.isEmpty || c.peek == some '#' || (!inFlow && (c.column : Int) < indent) then
          (done.reverse, broken, c)
        else plainFrom inFlow indent bound done spaces broken c

/-- Reads a plain scalar: its text, whether a key may follow, and the position behind it. -/
def plainText (inFlow : Bool) (indent : Int) (c : Cursor) : List Char × Bool × Cursor :=
  plainFrom inFlow indent (c.size + 1) [] [] false c

/-! ## Quoted scalars -/

/-- The character that a one-letter escape stands for. -/
def simpleEscape? : Char → Option Char
  | '0' => some '\x00'
  | 'a' => some '\x07'
  | 'b' => some '\x08'
  | 't' => some '\t'
  | '\t' => some '\t'
  | 'n' => some '\n'
  | 'v' => some '\x0B'
  | 'f' => some '\x0C'
  | 'r' => some '\r'
  | 'e' => some '\x1B'
  | ' ' => some ' '
  | '"' => some '"'
  | '\\' => some '\\'
  | '/' => some '/'
  | 'N' => some '\x85'
  | '_' => some '\xA0'
  | 'L' => some '\u2028'
  | 'P' => some '\u2029'
  | _ => none

/-- How many hexadecimal digits an escape has. -/
def codeEscapeLength? : Char → Option Nat
  | 'x' => some 2
  | 'u' => some 4
  | 'U' => some 8
  | _ => none

def hexValue? (c : Char) : Option Nat :=
  if '0' ≤ c ∧ c ≤ '9' then some (c.toNat - '0'.toNat)
  else if 'a' ≤ c ∧ c ≤ 'f' then some (c.toNat - 'a'.toNat + 10)
  else if 'A' ≤ c ∧ c ≤ 'F' then some (c.toNat - 'A'.toNat + 10)
  else none

def hexNumber? (cs : List Char) : Option Nat :=
  cs.foldlM (fun n c => (hexValue? c).map fun d => n * 16 + d) 0

def codePoint (n : Nat) : Except Error CodePoint :=
  if 0x80000000 ≤ n then .error .codePointOverflow
  else if 0x110000 ≤ n then .error .codePointRange
  else .ok (.ofNat n)

/-- Reads the empty lines behind a line end inside quotes; they come in reverse. -/
def quotedBreaks : (bound : Nat) → List Char → Cursor → Except Error (List Char × Cursor)
  | 0, breaks, c => .ok (breaks, c)
  | bound + 1, breaks, c =>
    if c.atDocumentMarker then .error .malformed
    else
      let c := c.skipWhile isGap
      match c.lineBreak? with
      | none => .ok (breaks, c)
      | some (b, after) => quotedBreaks bound (b :: breaks) after

/-- Reads gaps and line ends inside quotes: what they count as, in reverse. -/
def quotedSpaces (c : Cursor) : Except Error (List Char × Cursor) :=
  let (spaces, c) := c.takeWhile isGap
  if c.rest.isEmpty then .error c.unexpected
  else
    match c.lineBreak? with
    | none => .ok (spaces.reverse, c)
    | some (b, after) =>
      match quotedBreaks (after.size + 1) [] after with
      | .error e => .error e
      | .ok (breaks, after) =>
        if b != '\n' then .ok (breaks ++ [b], after)
        else if breaks.isEmpty then .ok ([' '], after)
        else .ok (breaks, after)

/-- Reads the hexadecimal number of an escape. -/
def escapeNumber (count : Nat) (c : Cursor) : Except Error Nat :=
  let digits := c.rest.take count
  match hexNumber? digits with
  | none => .error .malformed
  | some n => if digits.length < count then .error (c.advance count).unexpected else .ok n

/-- Reads the escape behind a backslash: what it stands for, in reverse. -/
def escapeText (c : Cursor) : Except Error (List CodePoint × Cursor) :=
  match c.peek with
  | none => .error c.unexpected
  | some ch =>
    match simpleEscape? ch with
    | some e => .ok ([.char e], c.next)
    | none =>
      match codeEscapeLength? ch with
      | some count => do
        let point ← codePoint (← escapeNumber count c.next)
        return ([point], c.next.advance count)
      | none =>
        match c.lineBreak? with
        | none => .error .malformed
        | some (_, after) => do
          let (breaks, after) ← quotedBreaks (after.size + 1) [] after
          return (breaks.map .char, after)

/-- Whether a character inside quotes stands for itself wherever it is. -/
def isQuotedChar (c : Char) : Bool :=
  !(c == '\'' || c == '"' || c == '\\' || isGap c || isBreak c)

/-- Reads up to the closing quote; `done` is what was read, in reverse. -/
def quotedFrom (double : Bool) : (bound : Nat) → (done : List CodePoint) → Cursor →
    Except Error (LooseText × Cursor)
  | 0, _, _ => .error .malformed
  | bound + 1, done, c =>
    let (run, c) := c.takeWhile isQuotedChar
    let done := run.reverse.map .char ++ done
    match c.peek with
    | none => .error c.unexpected
    | some ch =>
      if ch == '"' && double then .ok (⟨done.reverse⟩, c.next)
      else if ch == '\'' && !double then
        if c.peekAt 1 == some '\'' then
          quotedFrom double bound (.char '\'' :: done) (c.advance 2)
        else .ok (⟨done.reverse⟩, c.next)
      else if ch == '\\' && double then
        match escapeText c.next with
        | .error e => .error e
        | .ok (text, after) => quotedFrom double bound (text ++ done) after
      else if isGap ch || isBreak ch then
        match quotedSpaces c with
        | .error e => .error e
        | .ok (text, after) => quotedFrom double bound (text.map .char ++ done) after
      else quotedFrom double bound (.char ch :: done) c.next

/-- Reads a quoted scalar from behind its opening quote. -/
def quotedText (double : Bool) (c : Cursor) : Except Error (LooseText × Cursor) :=
  quotedFrom double (c.size + 1) [] c

/-! ## Block scalars -/

/-- What happens to the line ends at the end of a block. -/
inductive Chomping where
  | clip
  | strip
  | keep
  deriving DecidableEq, Repr

/-- Reads the sign that says how a block is chomped. -/
def chomping? : Option Char → Option Chomping
  | some '+' => some .keep
  | some '-' => some .strip
  | _ => none

/-- Reads the digit that gives the indentation of a block; zero is none. -/
def increment? (ch : Option Char) : Except Error (Option Nat) :=
  match ch with
  | some c =>
    if c.isDigit then
      if c = '0' then .error .malformed else .ok (some (c.toNat - '0'.toNat))
    else .ok none
  | none => .ok none

/-- Reads the header of a block: chomping and indentation, in any order. -/
def blockHeader (c : Cursor) : Except Error (Chomping × Option Nat × Cursor) := do
  let (chomping, increment, c) ← match chomping? c.peek with
    | some ch => do
      let c := c.next
      match ← increment? c.peek with
      | some n => pure (ch, some n, c.next)
      | none => pure (ch, none, c)
    | none => do
      match ← increment? c.peek with
      | some n =>
        let c := c.next
        match chomping? c.peek with
        | some ch => pure (ch, some n, c.next)
        | none => pure (.clip, some n, c)
      | none => pure (.clip, none, c)
  if isSpaceOrEnd c.peek then return (chomping, increment, c) else throw c.unexpected

/-- Reads the empty lines at the start of a block whose indentation is not given: the line
ends, in reverse, and the widest column met. -/
def blockIndentation : (bound : Nat) → (breaks : List Char) → (widest : Nat) → Cursor →
    List Char × Nat × Cursor
  | 0, breaks, widest, c => (breaks, widest, c)
  | bound + 1, breaks, widest, c =>
    if c.peek == some ' ' then
      let c := c.next
      blockIndentation bound breaks (max widest c.column) c
    else
      match c.lineBreak? with
      | none => (breaks, widest, c)
      | some (b, after) => blockIndentation bound (b :: breaks) widest after

def skipIndent (indent : Nat) : (bound : Nat) → Cursor → Cursor
  | 0, c => c
  | bound + 1, c =>
    if c.column < indent && c.peek == some ' ' then skipIndent indent bound c.next else c

/-- Reads empty lines inside a block: the line ends, in reverse. -/
def blockBreaks (indent : Nat) : (bound : Nat) → (breaks : List Char) → Cursor →
    List Char × Cursor
  | 0, breaks, c => (breaks, c)
  | bound + 1, breaks, c =>
    let c := skipIndent indent indent c
    match c.lineBreak? with
    | none => (breaks, c)
    | some (b, after) => blockBreaks indent bound (b :: breaks) after

/-- Reads the lines of a block.  `done` is what was read, `breaks` the empty lines passed
since, both in reverse; the answer has the last line end and the empty lines behind it. -/
def blockLines (folded : Bool) (indent : Nat) : (bound : Nat) → (done breaks : List Char) →
    Cursor → List Char × List Char × List Char × Cursor
  | 0, done, breaks, c => (done, [], breaks, c)
  | bound + 1, done, breaks, c =>
    let startsDense := !(c.peek.any isGap)
    let (line, c) := c.takeWhile fun ch => !isBreak ch
    let done := line.reverse ++ (breaks ++ done)
    let (lineEnd, c) : List Char × Cursor :=
      match c.lineBreak? with
      | some (b, after) => ([b], after)
      | none => ([], c)
    let (breaks, c) := blockBreaks indent (c.size + 1) [] c
    if c.column == indent && !c.rest.isEmpty then
      if folded && lineEnd == ['\n'] && startsDense && !(c.peek.any isGap) then
        if breaks.isEmpty then blockLines folded indent bound (' ' :: done) breaks c
        else blockLines folded indent bound done breaks c
      else blockLines folded indent bound (lineEnd ++ done) breaks c
    else (done, lineEnd, breaks, c)

/-- Reads a block scalar from behind its mark; `indent` is that of the collection around it. -/
def blockText (folded : Bool) (indent : Int) (c : Cursor) :
    Except Error (List Char × Cursor) := do
  let (chomping, increment, c) ← blockHeader c
  let c ← c.finishLine
  let least : Nat := max (indent + 1) 1 |>.toNat
  let (breaks, indent, c) : List Char × Nat × Cursor :=
    match increment with
    | none =>
      let (breaks, widest, c) := blockIndentation (c.size + 1) [] 0 c
      (breaks, max least widest, c)
    | some n =>
      let indent := least + n - 1
      let (breaks, c) := blockBreaks indent (c.size + 1) [] c
      (breaks, indent, c)
  let (done, lineEnd, breaks, c) : List Char × List Char × List Char × Cursor :=
    if c.column == indent && !c.rest.isEmpty then
      blockLines folded indent (c.size + 1) [] breaks c
    else ([], [], breaks, c)
  let tail := match chomping with
    | .strip => []
    | .clip => lineEnd
    | .keep => breaks ++ lineEnd
  return ((tail ++ done).reverse, c)

end Brainfuck.Yaml
