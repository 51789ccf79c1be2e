import Brainfuck.Instruction
import Brainfuck.Text.Loose

/-! # Programs

A program is the stream of instructions left when the comments of a source are
dropped.  A source is a text, or bytes that are read one character per byte.

* `Program.ofText`, `Program.ofLoose`, `Program.ofBytes` — the readings of a source;
* `Program.text` — the program written back without comments.
-/

namespace Brainfuck

/-- A stream of instructions, addressed by position. -/
abbrev Program := Array Instruction

namespace Program

/-- The instructions of a sequence of characters, in order. -/
def ofChars (source : List Char) : Program :=
  (source.filterMap Instruction.ofChar?).toArray

/-- The instructions of a source text. -/
def ofText (source : String) : Program :=
  ofChars source.toList

/-- The instructions of a loose text; half of a surrogate pair is a comment. -/
def ofLoose (source : LooseText) : Program :=
  ofChars (source.points.filterMap CodePoint.char?)

/-- The character of a byte: code points 0 to 255 are the bytes themselves. -/
def byteChar (b : UInt8) : Char :=
  Char.ofNat b.toNat

/-- The instructions of a source given as bytes, each byte one character. -/
def ofBytes (source : List UInt8) : Program :=
  ofChars (source.map byteChar)

/-- The symbols of a program, without comments. -/
def text (p : Program) : String :=
  String.ofList (p.toList.map Instruction.symbol)

/-- Reading what a program is written as gives the program back. -/
@[simp] theorem ofChars_symbols (p : Program) :
    ofChars (p.toList.map Instruction.symbol) = p := by
  have h : (Instruction.ofChar? ∘ Instruction.symbol) = some := by
    funext i
    simp
  rw [ofChars, List.filterMap_map, h, List.filterMap_some, Array.toArray_toList]

@[simp] theorem ofText_text (p : Program) : ofText p.text = p := by
  simp [ofText, text]

theorem ofLoose_ofChars (cs : List Char) : ofLoose (.ofChars cs) = ofChars cs := by
  have only : CodePoint.char? ∘ CodePoint.char = some := rfl
  rw [ofLoose, LooseText.ofChars, List.filterMap_map, only, List.filterMap_some]

@[simp] theorem ofLoose_ofString (source : String) : ofLoose source = ofText source :=
  ofLoose_ofChars source.toList

/-- Comments are dropped piece by piece. -/
theorem ofChars_append (s t : List Char) : ofChars (s ++ t) = ofChars s ++ ofChars t := by
  simp [ofChars]

end Program

end Brainfuck
