import Brainfuck.Tape

/-! # Memory dumps

A dump shows a range of cells as text, with the range in front and the cell under the
pointer in brackets: `Memory [0-3]: 0 [5] 0 0`.
-/

namespace Brainfuck.Tape

/-- A cell as a dump shows it: the cell under the pointer stands in brackets. -/
def dumpToken (t : Tape) (index : Nat) (value : UInt8) : String :=
  if index = t.pointer then s!"[{value.toNat}]" else s!"{value.toNat}"

/-- The cells from `start` on, at most `count`, as text.  A start that is not on the tape is
an error, told in the same place as the cells. -/
def dump (t : Tape) (start count : Int) : String :=
  if start < 0 then s!"Error: Start position {start} is negative"
  else if (t.size : Int) ≤ start then
    s!"Error: Start position {start} exceeds memory size {t.size}"
  else if count ≤ 0 then s!"Memory [{start}-{start}]: (empty)"
  else
    let values := t.window start count
    let tokens := (values.zipIdx start.toNat).map fun (value, index) => t.dumpToken index value
    let last := start + values.length - 1
    s!"Memory [{start}-{last}]: " ++ " ".intercalate tokens

/-- How many cells a dump shows when no number is given. -/
def defaultDumpCount : Nat := 16

end Brainfuck.Tape
