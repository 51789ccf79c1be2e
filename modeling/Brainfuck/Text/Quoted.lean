import Brainfuck.Text.Loose
import Brainfuck.Text.Printable

/-! # Quoted texts

How a message shows a text or a sequence of bytes: in quotes, with escapes for what would
not be seen.  Single quotes are used, unless the text holds a single quote and no double one.

* `quote` — characters in quotes;
* `quoted`, `LooseText.quoted` — the same for a string and for a loose text;
* `quoteBytes` — bytes in quotes with a `b` in front.
-/

namespace Brainfuck.Text

/-- The quote that a text is put in. -/
def quoteMark (cs : List Char) : Char :=
  if cs.contains '\'' && !cs.contains '"' then '"' else '\''

/-- The escape that a character has whatever stands around it. -/
def escapeControl (c : Char) : Option (List Char) :=
  if c = '\\' then some ['\\', '\\']
  else if c = '\n' then some ['\\', 'n']
  else if c = '\r' then some ['\\', 'r']
  else if c = '\t' then some ['\\', 't']
  else none

/-- A character inside quotes. -/
def quoteChar (mark c : Char) : List Char :=
  if c = mark then ['\\', c]
  else match escapeControl c with
    | some escaped => escaped
    | none =>
      if isPrintable c then [c]
      else if c.toNat ≤ 0xFF then '\\' :: 'x' :: hex 2 c.toNat
      else if c.toNat ≤ 0xFFFF then '\\' :: 'u' :: hex 4 c.toNat
      else '\\' :: 'U' :: hex 8 c.toNat

def quote (cs : List Char) : List Char :=
  let mark := quoteMark cs
  mark :: cs.flatMap (quoteChar mark) ++ [mark]

/-- A byte inside quotes: what is not ASCII is escaped. -/
def quoteByte (mark : Char) (b : UInt8) : List Char :=
  let c := Char.ofNat b.toNat
  if b < 0x80 then quoteChar mark c else '\\' :: 'x' :: hex 2 b.toNat

def quoteBytes (bytes : List UInt8) : List Char :=
  let mark := quoteMark (bytes.map fun b => Char.ofNat b.toNat)
  'b' :: mark :: bytes.flatMap (quoteByte mark) ++ [mark]

/-- A text in quotes, as a string. -/
def quoted (s : String) : String :=
  String.ofList (quote s.toList)

end Brainfuck.Text

namespace Brainfuck.LooseText

/-- A loose text in quotes, as a string: half of a surrogate pair is escaped. -/
def quoted (t : LooseText) : String :=
  let mark := Text.quoteMark (t.points.filterMap CodePoint.char?)
  let inside := t.points.flatMap fun
    | .char c => Text.quoteChar mark c
    | .half n => halfEscape n
  String.ofList (mark :: inside ++ [mark])

end Brainfuck.LooseText
