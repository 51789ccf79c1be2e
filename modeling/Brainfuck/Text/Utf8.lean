/-! # UTF-8

Texts as bytes and bytes as texts.  The decoder is a machine that reads one byte at a time;
between bytes it knows how many bytes of the current character are still owed and which
values the next one may have.  A byte that cannot continue the current character ends it as
an ill-formed part and is then read afresh, so that a byte below 128 always stands for itself.

* `Utf8.encode` — the bytes of a text;
* `Utf8.feedAll` — reads bytes from any state;
* `Utf8.parts` — the characters of a byte sequence, `none` for each ill-formed part;
* `Utf8.decode?` — refuses ill-formed bytes;
* `Utf8.decodeLossy` — puts U+FFFD for each ill-formed part.
-/

namespace Brainfuck.Utf8

def encode (cs : List Char) : List UInt8 :=
  cs.flatMap String.utf8EncodeChar

def bytesOf (s : String) : List UInt8 :=
  encode s.toList

/-- Where the decoder stands between two bytes. -/
inductive State where
  /-- Between characters. -/
  | start
  /-- Inside a character: `owed + 1` bytes are still to come, the next one between `low` and
  `high`; `code` holds the bits so far. -/
  | inside (owed : Nat) (code : Nat) (low high : UInt8)
  deriving DecidableEq, Repr

/-- Reads a byte between characters. -/
def feedStart (b : UInt8) : State × List (Option Char) :=
  if b < 0x80 then (.start, [some (Char.ofNat b.toNat)])
  else if b < 0xC2 then (.start, [none])
  else if b < 0xE0 then (.inside 0 (b.toNat - 0xC0) 0x80 0xBF, [])
  else if b = 0xE0 then (.inside 1 0 0xA0 0xBF, [])
  else if b = 0xED then (.inside 1 0xD 0x80 0x9F, [])
  else if b < 0xF0 then (.inside 1 (b.toNat - 0xE0) 0x80 0xBF, [])
  else if b = 0xF0 then (.inside 2 0 0x90 0xBF, [])
  else if b < 0xF4 then (.inside 2 (b.toNat - 0xF0) 0x80 0xBF, [])
  else if b = 0xF4 then (.inside 2 4 0x80 0x8F, [])
  else (.start, [none])

def feed : State → UInt8 → State × List (Option Char)
  | .start, b => feedStart b
  | .inside owed code low high, b =>
    if low ≤ b ∧ b ≤ high then
      let code := code * 64 + (b.toNat - 0x80)
      match owed with
      | 0 => (.start, [some (Char.ofNat code)])
      | owed + 1 => (.inside owed code 0x80 0xBF, [])
    else
      let (state, parts) := feedStart b
      (state, none :: parts)

/-- What is left over when the bytes end. -/
def finish : State → List (Option Char)
  | .start => []
  | .inside .. => [none]

/-- Reads bytes; the parts that they complete come in order. -/
def feedAll (state : State) (bytes : List UInt8) : State × List (Option Char) :=
  let (state, found) := bytes.foldl
    (fun (state, found) b =>
      let (state, new) := feed state b
      (state, new.reverse ++ found))
    (state, [])
  (state, found.reverse)

/-- The characters of a byte sequence in order, `none` for each ill-formed part. -/
def parts (bytes : List UInt8) : List (Option Char) :=
  let (state, found) := feedAll .start bytes
  found ++ finish state

/-- The text of well-formed bytes. -/
def decode? (bytes : List UInt8) : Option (List Char) :=
  let ps := parts bytes
  if ps.all Option.isSome then some (ps.filterMap id) else none

/-- The character that stands for an ill-formed part. -/
def replacement : Char := '\uFFFD'

/-- The text of any bytes. -/
def decodeLossy (bytes : List UInt8) : List Char :=
  (parts bytes).map fun part => part.getD replacement

end Brainfuck.Utf8
