import Brainfuck.Text.Lines
import Brainfuck.Text.Utf8

/-! # Reading a file piece by piece

The text of a long file is not read at once.  Its bytes come in blocks, each of which is decoded
as a whole, and its characters are handed out in pieces.  So ill-formed bytes are met when the
block that holds them is called for, and nothing of the piece that calls for it is handed out.

* `PieceReader` — where the reading stands;
* `PieceReader.nextBlock?`, `PieceReader.nextPiece?` — read on;
* `Pieces.ofBytes` — the pieces of a file, as far as they can be read.
-/

namespace Brainfuck.Text

/-- Where the reading of a file stands. -/
structure PieceReader where
  /-- The bytes that were not read yet. -/
  bytes : List UInt8
  decoder : Utf8.State
  /-- Whether a carriage return is held back that may be the start of a longer line end. -/
  returnHeld : Bool
  /-- The characters that were read and not handed out yet. -/
  ready : List Char
  /-- The length of the last block, in bytes and in characters. -/
  blockBytes : Nat
  blockChars : Nat

/-- The length of a piece, in characters. -/
def pieceLength : Nat := 4096

/-- The least length of a block, in bytes. -/
def leastBlock : Nat := 8192

namespace PieceReader

def start (bytes : List UInt8) : PieceReader := ⟨bytes, .start, false, [], 0, 0⟩

/-- The length of the next block when so many characters are wanted: as many bytes as they
would have taken in the last block. -/
def blockLength (r : PieceReader) (wanted : Nat) : Nat :=
  let expected := if r.blockChars = 0 then wanted else r.blockBytes * wanted / r.blockChars
  max leastBlock (max wanted expected)

/-- Reads the next block; the flag says whether there was anything left.  `none` stands for
ill-formed bytes. -/
def nextBlock? (r : PieceReader) (wanted : Nat) : Option (Bool × PieceReader) :=
  let size := r.blockLength wanted
  let block := r.bytes.take size
  let atEnd := block.isEmpty
  let (decoder, found) := Utf8.feedAll r.decoder block
  let found := if atEnd then found ++ Utf8.finish decoder else found
  if found.any Option.isNone then none
  else
    let decoded := found.filterMap id
    let released := r.returnHeld && (atEnd || !decoded.isEmpty)
    let decoded := if released then '\r' :: decoded else decoded
    let holds := !atEnd && decoded.getLast? == some '\r'
    let chars := unifyLineEnds (if holds then decoded.dropLast else decoded)
    some (!(atEnd && chars.isEmpty),
      { bytes := r.bytes.drop size
        decoder := if atEnd then .start else decoder
        returnHeld := holds || (r.returnHeld && !released)
        ready := r.ready ++ chars
        blockBytes := block.length
        blockChars := chars.length })

/-- Hands out as many characters as are wanted, or all there are; `done` are those before and
`bound` limits the blocks. -/
def nextPiece? : (bound wanted : Nat) → (done : List Char) → PieceReader →
    Option (List Char × PieceReader)
  | 0, _, done, r => some (done, r)
  | bound + 1, wanted, done, r =>
    let taken := r.ready.take wanted
    let done := done ++ taken
    let r := { r with ready := r.ready.drop wanted }
    let wanted := wanted - taken.length
    if wanted = 0 then some (done, r)
    else
      match r.nextBlock? wanted with
      | none => none
      | some (false, r) => some (done, r)
      | some (true, r) => nextPiece? bound wanted done r

end PieceReader

structure Pieces where
  pieces : List (List Char)
  /-- Whether they are all of it, because no ill-formed bytes came in between. -/
  whole : Bool
  deriving DecidableEq, Repr

namespace Pieces

/-- Reads pieces to the end, `bound` of them at most. -/
def readFrom : (bound : Nat) → PieceReader → Pieces
  | 0, _ => ⟨[], true⟩
  | bound + 1, r =>
    match r.nextPiece? (r.bytes.length + 3) pieceLength [] with
    | none => ⟨[], false⟩
    | some ([], _) => ⟨[], true⟩
    | some (piece, r) =>
      let rest := readFrom bound r
      ⟨piece :: rest.pieces, rest.whole⟩

/-- The pieces of a file; there are no more of them than bytes. -/
def ofBytes (bytes : List UInt8) : Pieces :=
  readFrom (bytes.length + 1) (.start bytes)

end Pieces

end Brainfuck.Text
