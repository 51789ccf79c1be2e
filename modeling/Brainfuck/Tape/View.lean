import Brainfuck.Tape

/-! # The tape by cells

What every operation does to the tape, seen through the pointer and through the cells by
index.  Beyond its end a tape counts as zero, so growth does not show in this view.

* `Tape.cell` — the byte at an index;
* one lemma for each operation and each of the two observations;
* `reset_put`, `reset_moveLeft`, `reset_moveRight` — the sizes that a tape was made with stay, said
  through what a reset leaves;
* `size_moveRight_of_lt`, `size_moveRight_of_le` — when a move adds cells, and how many.
-/

namespace Brainfuck.Tape

/-- The byte at an index; what lies beyond the end counts as zero. -/
def cell (t : Tape) (i : Nat) : UInt8 :=
  t.cells[i]?.getD 0

/-- A cell is read at the pointer. -/
theorem read_eq_cell (t : Tape) : t.read = t.cell t.pointer := by
  simp [read, cell, t.pointer_lt]

theorem cell_of_size_le {t : Tape} {i : Nat} (h : t.size ≤ i) : t.cell i = 0 := by
  have h : t.cells.size ≤ i := h
  simp [cell, h]

/-! ## A blank tape -/

@[simp] theorem pointer_blank {n m : Nat} (pos : 0 < n) (le : n ≤ m) :
    (blank n m pos le).pointer = 0 := rfl

@[simp] theorem cell_blank {n m : Nat} (pos : 0 < n) (le : n ≤ m) (i : Nat) :
    (blank n m pos le).cell i = 0 := by
  by_cases h : i < n <;> simp [blank, cell, h]

@[simp] theorem size_blank {n m : Nat} (pos : 0 < n) (le : n ≤ m) :
    (blank n m pos le).size = n := by
  simp [blank, size]

@[simp] theorem pointer_reset (t : Tape) : t.reset.pointer = 0 := rfl

@[simp] theorem cell_reset (t : Tape) (i : Nat) : t.reset.cell i = 0 := by
  simp [reset]

theorem new?_of_le {initialCells maxCells : Int} (pos : 0 < initialCells)
    (le : initialCells ≤ maxCells) :
    new? initialCells maxCells =
      .ok (blank initialCells.toNat maxCells.toNat (by omega) (by omega)) := by
  rw [new?, dif_neg (Int.not_le.mpr pos), dif_neg (Int.not_lt.mpr le)]

/-! ## What a reset leaves

A reset looks at the start size and the cap only, and no operation changes those. -/

@[simp] theorem reset_blank {n m : Nat} (pos : 0 < n) (le : n ≤ m) :
    (blank n m pos le).reset = blank n m pos le := rfl

theorem reset_of_new? {initialCells maxCells : Int} {t : Tape}
    (made : new? initialCells maxCells = .ok t) : t.reset = t := by
  unfold new? at made
  split at made
  · cases made
  · split at made <;> cases made
    rfl

@[simp] theorem reset_put (t : Tape) (value : UInt8) : (t.put value).reset = t.reset := rfl

@[simp] theorem reset_moveLeft (t : Tape) : t.moveLeft.reset = t.reset := rfl

@[simp] theorem reset_moveRight (t : Tape) : t.moveRight.reset = t.reset := by
  unfold moveRight
  split
  · rfl
  · split <;> rfl

/-! ## Writing -/

@[simp] theorem pointer_put (t : Tape) (value : UInt8) : (t.put value).pointer = t.pointer := rfl

@[simp] theorem size_put (t : Tape) (value : UInt8) : (t.put value).size = t.size := by
  simp [size, put]

/-- A write changes the cell under the pointer and no other one. -/
@[simp] theorem cell_put (t : Tape) (value : UInt8) (i : Nat) :
    (t.put value).cell i = if i = t.pointer then value else t.cell i := by
  have inside := t.pointer_lt
  by_cases same : i = t.pointer
  · subst same
    simp [cell, put, inside]
  · have other : t.pointer ≠ i := fun h => same h.symm
    simp [cell, put, same, other]

/-! ## Moving -/

@[simp] theorem pointer_moveLeft (t : Tape) : t.moveLeft.pointer = t.pointer - 1 := rfl

@[simp] theorem size_moveLeft (t : Tape) : t.moveLeft.size = t.size := rfl

@[simp] theorem cell_moveLeft (t : Tape) (i : Nat) : t.moveLeft.cell i = t.cell i := rfl

/-- The pointer is at the limit when it is on the last cell of a tape that cannot grow. -/
theorem atLimit_iff (t : Tape) : t.atLimit = true ↔ t.pointer + 1 = t.maxCells := by
  have inside := t.pointer_lt
  have capped := t.size_le_max
  simp only [atLimit, Bool.and_eq_true, decide_eq_true_eq]
  omega

@[simp] theorem maxCells_moveRight (t : Tape) : t.moveRight.maxCells = t.maxCells :=
  (congrArg maxCells t.reset_moveRight :)

@[simp] theorem initialCells_moveRight (t : Tape) : t.moveRight.initialCells = t.initialCells :=
  (congrArg initialCells t.reset_moveRight :)

/-- Where the next cell is there, no cell is added. -/
theorem size_moveRight_of_lt {t : Tape} (inside : t.pointer + 1 < t.size) :
    t.moveRight.size = t.size := by
  have inside : t.pointer + 1 < t.cells.size := inside
  simp [moveRight, inside, size]

/-- Where the next cell is not there and the tape is below its cap, the tape doubles, up to the
cap. -/
theorem size_moveRight_of_le {t : Tape} (last : t.size ≤ t.pointer + 1)
    (room : t.size < t.maxCells) : t.moveRight.size = min (t.size * 2) t.maxCells := by
  have last : ¬ t.pointer + 1 < t.cells.size := Nat.not_lt.mpr last
  have room : t.cells.size < t.maxCells := room
  simp only [moveRight, last, room, dite_true, dite_false, size, grownSize, Array.size_append,
    Array.size_replicate]
  omega

/-- At the limit nothing happens. -/
theorem moveRight_of_atLimit {t : Tape} (limit : t.atLimit = true) : t.moveRight = t := by
  simp only [atLimit, Bool.and_eq_true, decide_eq_true_eq] at limit
  simp only [moveRight, Nat.not_lt.mpr limit.1, Nat.not_lt.mpr limit.2, dite_false]

/-- Away from the limit the pointer moves on. -/
theorem pointer_moveRight {t : Tape} (h : t.atLimit = false) :
    t.moveRight.pointer = t.pointer + 1 := by
  have room : t.pointer + 1 ≠ t.maxCells := fun full => by simp [t.atLimit_iff.mpr full] at h
  have inside := t.pointer_lt
  have capped := t.size_le_max
  unfold moveRight
  split
  · rfl
  · split
    · rfl
    · omega

/-- Growth adds only zeros, so moving to the right changes no cell. -/
@[simp] theorem cell_moveRight (t : Tape) (i : Nat) : t.moveRight.cell i = t.cell i := by
  unfold moveRight
  split
  · rfl
  · split
    · by_cases inside : i < t.cells.size
      · simp [cell, Array.getElem?_append_left, inside]
      · have outside : t.cells.size ≤ i := Nat.le_of_not_lt inside
        simp only [cell, Array.getElem?_append_right outside, Array.getElem?_eq_none outside,
          Array.getElem?_replicate]
        split <;> rfl
    · rfl

end Brainfuck.Tape
