import Brainfuck.Text.Pieces
import Brainfuck.Yaml.Token

/-! # The text of a YAML file

A YAML text comes in pieces, and only a piece that is reached is looked through for what cannot
stand in it.  So a fault far behind in a file is met only by what is read up to there.

* `Source` — a text, and the fault that breaks it off;
* `Source.ofBytes` — the text of a file.
-/

namespace Brainfuck.Yaml

/-- Whether a character can stand in a YAML text at all. -/
def isTextChar (c : Char) : Bool :=
  let n := c.toNat
  n == 0x09 || n == 0x0A || n == 0x0D || (0x20 ≤ n && n ≤ 0x7E) || n == 0x85 ||
    (0xA0 ≤ n && n ≤ 0xFFFD) || 0x10000 ≤ n

/-- A text to be read. -/
structure Source where
  text : List Char
  /-- What is met at the end, if the text is broken off there. -/
  fault : Option Error := none
  deriving DecidableEq, Repr

namespace Source

/-- The text of pieces up to the first one with a character that cannot stand in it; `fault` is
what comes behind the last piece. -/
def ofPieces (pieces : List (List Char)) (fault : Option Error) : Source :=
  let good := pieces.takeWhile fun piece => piece.all isTextChar
  ⟨good.flatten, if good.length < pieces.length then some .malformed else fault⟩

/-- The text of a file.  Its first two pieces are taken together, so that nothing can be read
before there are both. -/
def ofBytes (content : List UInt8) : Source :=
  let file := Text.Pieces.ofBytes content
  let fault := if file.whole then none else some .notUtf8
  match file.pieces with
  | first :: second :: rest => ofPieces ((first ++ second) :: rest) fault
  | pieces => if file.whole then ofPieces pieces fault else ⟨[], fault⟩

end Source

end Brainfuck.Yaml
