/-! # The tape

A row of byte cells with a pointer.  The tape starts with a number of zero cells and
doubles, up to a cap, when the pointer leaves it on the right; on the left the pointer
stays at cell 0.  Arithmetic on a cell is modulo 256.

* `Tape.new?` — a tape of a given size and cap, when the sizes make sense;
* `moveRight?`, `moveLeft`, `increment`, `decrement`, `read`, `write`, `reset`;
* `Tape.get?` — a cell by index, negative indices counting from the end.

That the pointer is on the tape and that the tape is not longer than its cap are part of
the type, so no operation can look outside the cells.
-/

namespace Brainfuck

/-- Byte cells and the pointer. -/
structure Tape where
  initialCells : Nat
  maxCells : Nat
  cells : Array UInt8
  pointer : Nat
  initial_pos : 0 < initialCells
  initial_le_max : initialCells ≤ maxCells
  pointer_lt : pointer < cells.size
  size_le_max : cells.size ≤ maxCells

/-- Why a tape cannot be made. -/
inductive TapeError where
  | initialNotPositive
  | maxBelowInitial
  deriving DecidableEq, Repr

def TapeError.message : TapeError → String
  | .initialNotPositive => "initial_cells must be positive"
  | .maxBelowInitial => "max_cells must be at least initial_cells"

namespace Tape

/-- The number of cells a tape starts with when nothing else is asked for. -/
def defaultCells : Nat := 30000

/-- The cap of a tape when nothing else is asked for. -/
def defaultMaxCells : Nat := 1000000

/-- A tape of zeros with the pointer on its first cell. -/
def blank (initialCells maxCells : Nat) (pos : 0 < initialCells) (le : initialCells ≤ maxCells) :
    Tape where
  initialCells := initialCells
  maxCells := maxCells
  cells := Array.replicate initialCells 0
  pointer := 0
  initial_pos := pos
  initial_le_max := le
  pointer_lt := by simpa using pos
  size_le_max := by simpa using le

/-- A blank tape, when the size is positive and the cap is not below it. -/
def new? (initialCells maxCells : Int) : Except TapeError Tape :=
  if hpos : initialCells ≤ 0 then .error .initialNotPositive
  else if hle : maxCells < initialCells then .error .maxBelowInitial
  else .ok (blank initialCells.toNat maxCells.toNat (by omega) (by omega))

def size (t : Tape) : Nat := t.cells.size

def read (t : Tape) : UInt8 :=
  have := t.pointer_lt
  t.cells[t.pointer]

def put (t : Tape) (value : UInt8) : Tape :=
  { t with
    cells := t.cells.set t.pointer value t.pointer_lt
    pointer_lt := by simpa using t.pointer_lt
    size_le_max := by simpa using t.size_le_max }

/-- Puts the low byte of an integer under the pointer. -/
def write (t : Tape) (value : Int) : Tape :=
  t.put (UInt8.ofNat (value % 256).toNat)

/-- Adds one to the cell under the pointer; 255 becomes 0. -/
def increment (t : Tape) : Tape :=
  t.put (t.read + 1)

/-- Takes one from the cell under the pointer; 0 becomes 255. -/
def decrement (t : Tape) : Tape :=
  t.put (t.read - 1)

/-- Moves the pointer one cell to the left; at cell 0 it stays. -/
def moveLeft (t : Tape) : Tape :=
  { t with
    pointer := t.pointer - 1
    pointer_lt := Nat.lt_of_le_of_lt (Nat.sub_le _ _) t.pointer_lt }

/-- Whether the pointer is on the last cell that the cap allows. -/
def atLimit (t : Tape) : Bool :=
  t.cells.size ≤ t.pointer + 1 && t.maxCells ≤ t.cells.size

/-- The length after growth: twice the cells, but not more than the cap. -/
def grownSize (t : Tape) : Nat :=
  min (t.cells.size * 2) t.maxCells

/-- Moves the pointer one cell to the right, growing the tape where it ends below its cap.
At the limit nothing happens. -/
def moveRight (t : Tape) : Tape :=
  if h : t.pointer + 1 < t.cells.size then
    { t with pointer := t.pointer + 1, pointer_lt := h }
  else if hmax : t.cells.size < t.maxCells then
    { t with
      cells := t.cells ++ Array.replicate (t.grownSize - t.cells.size) 0
      pointer := t.pointer + 1
      pointer_lt := by
        have := t.pointer_lt
        simp only [grownSize, Array.size_append, Array.size_replicate]
        omega
      size_le_max := by
        simp only [grownSize, Array.size_append, Array.size_replicate]
        omega }
  else t

/-- Moves the pointer one cell to the right, or refuses at the limit. -/
def moveRight? (t : Tape) : Option Tape :=
  if t.atLimit then none else some t.moveRight

/-- Drops any growth and sets every cell to zero. -/
def reset (t : Tape) : Tape :=
  blank t.initialCells t.maxCells t.initial_pos t.initial_le_max

/-- A bound of a range of cells: a negative bound counts from the end, and what lies
outside the tape is moved to its nearer end. -/
def clampBound (t : Tape) (bound : Int) : Nat :=
  if bound < 0 then (bound + t.size).toNat else min bound.toNat t.size

/-- The cells from `start` on, at most `count` of them.  The end of the range is cut at the
end of the tape first; then both bounds are read as `clampBound` says. -/
def window (t : Tape) (start count : Int) : List UInt8 :=
  let stop := min (start + count) t.size
  (t.cells.extract (t.clampBound start) (t.clampBound stop)).toList

/-- A cell by its index, a negative index counting from the end. -/
def get? (t : Tape) (index : Int) : Option UInt8 :=
  if 0 ≤ index then t.cells[index.toNat]?
  else if 0 ≤ index + t.size then t.cells[(index + t.size).toNat]?
  else none

end Tape

end Brainfuck
