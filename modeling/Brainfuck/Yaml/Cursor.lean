import Brainfuck.Yaml.Source

/-! # Reading positions

A position in a YAML text: what is still to be read, with index, line and column.

* `Cursor.next`, `Cursor.advance` — move on;
* `Cursor.lineBreak?` — reads one line end;
* `Cursor.unexpected`, `Cursor.demand` — the errors of a text that ends too early;
* the character classes of the language.
-/

namespace Brainfuck.Yaml

def isBreak (c : Char) : Bool :=
  c == '\n' || c == '\r' || c == '\x85' || c == '\u2028' || c == '\u2029'

/-- Whether a character is a space or a tab. -/
def isGap (c : Char) : Bool :=
  c == ' ' || c == '\t'

/-- Whether a word ends before a character: at a gap, a line end or the end of the text. -/
def endsWord : Option Char → Bool
  | none => true
  | some c => isGap c || isBreak c

def endsLine : Option Char → Bool
  | none => true
  | some c => isBreak c

/-- Whether a character may follow a word without a gap in between being a tab. -/
def isSpaceOrEnd : Option Char → Bool
  | none => true
  | some c => c == ' ' || isBreak c

/-- Whether a character can stand in the name of an anchor, a directive or a handle. -/
def isNameChar (c : Char) : Bool :=
  c.isAlphanum || c == '-' || c == '_'

/-- Whether a character can stand in a tag. -/
def isTagChar (c : Char) : Bool :=
  c.isAlphanum || "-;/?:@&=+$,_.!~*'()[]%".toList.contains c

/-- A position in a text. -/
structure Cursor where
  rest : List Char
  /-- The length of the whole text, which bounds how much there can be left to read. -/
  size : Nat
  /-- What is met at the end of the text, if it is broken off there. -/
  fault : Option Error
  index : Nat
  line : Nat
  column : Nat

namespace Cursor

def start (s : Source) : Cursor where
  rest := s.text
  size := s.text.length
  fault := s.fault
  index := 0
  line := 0
  column := 0

def peek (c : Cursor) : Option Char := c.rest.head?

/-- The character `n` places further on. -/
def peekAt (c : Cursor) (n : Nat) : Option Char := c.rest[n]?

/-- The error at a character that cannot stand here; where a text is broken off, it is what
broke it off. -/
def unexpected (c : Cursor) : Error :=
  if c.rest.isEmpty then c.fault.getD .malformed else .malformed

/-- Asks for `n` characters, of which a text that is broken off may have too few. -/
def demand (c : Cursor) (n : Nat) : Except Error Unit :=
  match c.fault with
  | some e => if (c.rest.take n).length < n then .error e else .ok ()
  | none => .ok ()

/-- The position behind the next character.  A carriage return before a line feed does not
count as a line end of its own, and a byte order mark takes no column. -/
def next (c : Cursor) : Cursor :=
  match c.rest with
  | [] => c
  | ch :: rest =>
    let c := { c with rest := rest, index := c.index + 1 }
    if isBreak ch && !(ch == '\r' && rest.head? == some '\n') then
      { c with line := c.line + 1, column := 0 }
    else if ch == '\uFEFF' then c
    else { c with column := c.column + 1 }

/-- The position `n` characters further on. -/
def advance : Nat → Cursor → Cursor
  | 0, c => c
  | n + 1, c => advance n c.next

/-- The characters up to the first one that is not in a class, and the position there. -/
def takeWhile (p : Char → Bool) (c : Cursor) : List Char × Cursor :=
  let taken := c.rest.takeWhile p
  (taken, c.advance taken.length)

/-- The position at the first character that is not in a class. -/
def skipWhile (p : Char → Bool) (c : Cursor) : Cursor :=
  (c.takeWhile p).2

/-- Reads one line end: the character it counts as, and the position behind it. -/
def lineBreak? (c : Cursor) : Option (Char × Cursor) :=
  match c.rest with
  | '\r' :: '\n' :: _ => some ('\n', c.advance 2)
  | ch :: _ =>
    if ch == '\u2028' || ch == '\u2029' then some (ch, c.next)
    else if isBreak ch then some ('\n', c.next)
    else none
  | [] => none

/-- The position behind a line end, if there is one. -/
def skipBreak (c : Cursor) : Cursor :=
  match c.lineBreak? with
  | some (_, after) => after
  | none => c

/-- The position at the end of a comment, if there is one. -/
def skipComment (c : Cursor) : Cursor :=
  if c.peek == some '#' then c.skipWhile fun ch => !isBreak ch else c

/-- Whether the three characters of a document marker stand here, with nothing behind them. -/
def atMarker (c : Cursor) (ch : Char) : Bool :=
  c.rest.take 3 == [ch, ch, ch] && endsWord (c.peekAt 3)

def atDocumentMarker (c : Cursor) : Bool :=
  c.atMarker '-' || c.atMarker '.'

/-- Reads what may follow on the line of a header: spaces, a comment and the line end. -/
def finishLine (c : Cursor) : Except Error Cursor :=
  let c := (c.skipWhile (· == ' ')).skipComment
  if endsLine c.peek then .ok c.skipBreak else .error c.unexpected

end Cursor

end Brainfuck.Yaml
