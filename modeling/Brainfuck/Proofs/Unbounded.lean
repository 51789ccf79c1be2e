import Brainfuck.Tape.View
import Mathlib.Algebra.Ring.Nat
import Mathlib.Logic.Function.Basic
import Mathlib.Order.Bounds.Defs

/-! # The tape without an end

What a tape shows is what a tape would show that has no end on the right and integers modulo 256 in
its cells.  Only two things tell of the end: a move past the cap is refused, and the number of cells
follows the furthest place of the pointer.

* `TapeOperation`, `Tape.perform?`, `Tape.performAll` — what can be done to a tape;
* `Unbounded`, `Unbounded.perform` — the same for the tape without an end;
* `tapeLengths` — the lengths that reach past a place;
* `Refines` — what ties a tape to the one without an end, kept by every operation.
-/

namespace Brainfuck

/-- What can be done to a tape. -/
inductive TapeOperation where
  | moveRight
  | moveLeft
  | increment
  | decrement
  | write (value : Int)
  | reset
  deriving DecidableEq, Repr

/-- The tape that an operation makes of a tape; none where it is refused. -/
def Tape.perform? (t : Tape) : TapeOperation → Option Tape
  | .moveRight => t.moveRight?
  | .moveLeft => some t.moveLeft
  | .increment => some t.increment
  | .decrement => some t.decrement
  | .write value => some (t.write value)
  | .reset => some t.reset

/-- One operation after the other; what is refused leaves the tape as it is. -/
def Tape.performAll (t : Tape) (ops : List TapeOperation) : Tape :=
  ops.foldl (fun t op => (t.perform? op).getD t) t

/-- A tape without an end on the right. -/
structure Unbounded where
  pointer : Nat
  cell : Nat → Int
  /-- The furthest place of the pointer since the last reset. -/
  furthest : Nat

namespace Unbounded

def blank : Unbounded where
  pointer := 0
  cell := fun _ => 0
  furthest := 0

/-- Puts an integer modulo 256 under the pointer. -/
def put (u : Unbounded) (value : Int) : Unbounded :=
  { u with cell := Function.update u.cell u.pointer (value % 256) }

/-- What an operation does where nothing is refused.  To the left of the first cell there is none,
so the pointer stays there. -/
def perform (u : Unbounded) : TapeOperation → Unbounded
  | .moveRight => { u with pointer := u.pointer + 1, furthest := max u.furthest (u.pointer + 1) }
  | .moveLeft => { u with pointer := u.pointer - 1 }
  | .increment => u.put (u.cell u.pointer + 1)
  | .decrement => u.put (u.cell u.pointer - 1)
  | .write value => u.put value
  | .reset => blank

/-- Whether an operation takes the pointer out of the first `cap` cells. -/
def leaves (u : Unbounded) (cap : Nat) (op : TapeOperation) : Prop :=
  op = .moveRight ∧ u.pointer + 1 = cap

instance (u : Unbounded) (cap : Nat) (op : TapeOperation) : Decidable (u.leaves cap op) :=
  inferInstanceAs (Decidable (_ ∧ _))

theorem not_leaves {u : Unbounded} {cap : Nat} {op : TapeOperation} (other : op ≠ .moveRight) :
    ¬ u.leaves cap op := fun leaves => other leaves.1

/-- One operation after the other, without those that leave the first `cap` cells. -/
def performAll (u : Unbounded) (cap : Nat) (ops : List TapeOperation) : Unbounded :=
  ops.foldl (fun u op => if u.leaves cap op then u else u.perform op) u

@[simp] theorem cell_put (u : Unbounded) (value : Int) (i : Nat) :
    (u.put value).cell i = if i = u.pointer then value % 256 else u.cell i :=
  Function.update_apply u.cell u.pointer (value % 256) i

end Unbounded

/-! ## Lengths

A tape starts with a number of cells, doubles, and is cut at its cap. -/

/-- The lengths that a tape can have, as far as they reach past a place. -/
def tapeLengths (start cap place : Nat) : Set Nat :=
  {n | (∃ k, n = min (start * 2 ^ k) cap) ∧ place < n}

section Lengths

variable {start cap place size : Nat}

theorem isLeast_tapeLengths_start (pos : 0 < start) (le : start ≤ cap) :
    IsLeast (tapeLengths start cap 0) start := by
  refine ⟨⟨⟨0, by omega⟩, pos⟩, ?_⟩
  rintro n ⟨⟨k, rfl⟩, _⟩
  exact Nat.le_min_of_le_of_le (Nat.le_mul_of_pos_right start (Nat.two_pow_pos k)) le

/-- A length that reaches further than it has to stays the least one. -/
theorem isLeast_tapeLengths_stay (least : IsLeast (tapeLengths start cap place) size)
    {further : Nat} (le : place ≤ further) (inside : further < size) :
    IsLeast (tapeLengths start cap further) size := by
  obtain ⟨⟨shape, _⟩, lower⟩ := least
  refine ⟨⟨shape, inside⟩, ?_⟩
  rintro n ⟨shape, reaches⟩
  exact lower ⟨shape, Nat.lt_of_le_of_lt le reaches⟩

/-- Below the cap the next length is the double one. -/
theorem isLeast_tapeLengths_double (least : IsLeast (tapeLengths start cap place) size)
    (room : size < cap) : IsLeast (tapeLengths start cap size) (min (size * 2) cap) := by
  obtain ⟨⟨⟨k, rfl⟩, reached⟩, _⟩ := least
  -- a length below the cap is not cut
  have uncut : min (start * 2 ^ k) cap = start * 2 ^ k := by omega
  rw [uncut] at room reached ⊢
  refine ⟨⟨⟨k + 1, by rw [Nat.pow_succ, Nat.mul_assoc]⟩, by omega⟩, ?_⟩
  rintro n ⟨⟨j, rfl⟩, longer⟩
  have more : start * 2 ^ k < start * 2 ^ j := Nat.lt_of_lt_of_le longer (Nat.min_le_left _ _)
  -- so it is doubled at least once more often
  have later : k + 1 ≤ j := by
    by_contra earlier
    have powers : 2 ^ j ≤ 2 ^ k := Nat.pow_le_pow_right (by decide) (by omega)
    exact absurd (Nat.mul_le_mul_left start powers) (Nat.not_le.mpr more)
  have doubled : start * 2 ^ k * 2 ≤ start * 2 ^ j := by
    rw [Nat.mul_assoc, ← Nat.pow_succ]
    exact Nat.mul_le_mul_left start (Nat.pow_le_pow_right (by decide) later)
  omega

end Lengths

/-! ## One operation on both tapes -/

/-- The tapes show the same, and the tape with an end is as long as it has to be. -/
structure Refines (t : Tape) (u : Unbounded) : Prop where
  pointer : t.pointer = u.pointer
  cell : ∀ i, ((t.cell i).toNat : Int) = u.cell i
  upTo : u.pointer ≤ u.furthest
  size : IsLeast (tapeLengths t.initialCells t.maxCells u.furthest) t.size

namespace Refines

variable {t : Tape} {u : Unbounded}

theorem blank {start cap : Nat} (pos : 0 < start) (le : start ≤ cap) :
    Refines (Tape.blank start cap pos le) Unbounded.blank where
  pointer := rfl
  cell i := by rw [Tape.cell_blank]; rfl
  upTo := Nat.le_refl 0
  size := by
    rw [Tape.size_blank]
    exact isLeast_tapeLengths_start pos le

theorem read (h : Refines t u) : (t.read.toNat : Int) = u.cell u.pointer := by
  rw [Tape.read_eq_cell, h.pointer, h.cell]

theorem put (h : Refines t u) {byte : UInt8} {value : Int}
    (same : (byte.toNat : Int) = value % 256) : Refines (t.put byte) (u.put value) where
  pointer := h.pointer
  cell i := by
    rw [Tape.cell_put, Unbounded.cell_put, h.pointer]
    split
    · exact same
    · exact h.cell i
  upTo := h.upTo
  size := by
    rw [Tape.size_put]
    exact h.size

theorem increment (h : Refines t u) : Refines t.increment (u.perform .increment) := by
  have read := h.read
  refine h.put ?_
  rw [UInt8.toNat_add, UInt8.toNat_one]
  omega

theorem decrement (h : Refines t u) : Refines t.decrement (u.perform .decrement) := by
  have read := h.read
  refine h.put ?_
  rw [UInt8.toNat_sub, UInt8.toNat_one]
  omega

theorem write (h : Refines t u) (value : Int) :
    Refines (t.write value) (u.perform (.write value)) := by
  refine h.put ?_
  rw [UInt8.toNat_ofNat']
  omega

theorem moveLeft (h : Refines t u) : Refines t.moveLeft (u.perform .moveLeft) where
  pointer := by rw [Tape.pointer_moveLeft, h.pointer]; rfl
  cell := h.cell
  upTo := Nat.le_trans (Nat.sub_le _ _) h.upTo
  size := h.size

theorem atLimit_iff_leaves (h : Refines t u) :
    t.atLimit = true ↔ u.leaves t.maxCells .moveRight := by
  rw [Tape.atLimit_iff, h.pointer]
  simp [Unbounded.leaves]

theorem moveRight (h : Refines t u) (inside : t.atLimit = false) :
    Refines t.moveRight (u.perform .moveRight) where
  pointer := by rw [Tape.pointer_moveRight inside, h.pointer]; rfl
  cell i := by rw [Tape.cell_moveRight]; exact h.cell i
  upTo := Nat.le_max_right _ _
  size := by
    have reached : u.furthest < t.size := h.size.1.2
    have on : t.pointer = u.pointer := h.pointer
    have upTo : u.pointer ≤ u.furthest := h.upTo
    rw [Tape.initialCells_moveRight, Tape.maxCells_moveRight, Unbounded.perform]
    by_cases next : t.pointer + 1 < t.size
    · rw [Tape.size_moveRight_of_lt next]
      exact isLeast_tapeLengths_stay h.size (Nat.le_max_left _ _)
        (Nat.max_lt.mpr ⟨reached, by omega⟩)
    · -- the pointer is on the last cell, which is as far as it ever was
      have away : t.pointer + 1 ≠ t.maxCells := by
        rw [ne_eq, ← Tape.atLimit_iff, inside]
        exact Bool.false_ne_true
      have capped : t.size ≤ t.maxCells := t.size_le_max
      have room : t.size < t.maxCells := by omega
      have furthest : max u.furthest (u.pointer + 1) = t.size := by omega
      rw [Tape.size_moveRight_of_le (by omega) room, furthest]
      exact isLeast_tapeLengths_double h.size room

/-- An operation is refused on the one tape exactly where it would leave the cap on the other, and
else both go on alike. -/
theorem perform (h : Refines t u) (op : TapeOperation) :
    (u.leaves t.maxCells op ∧ t.perform? op = none) ∨
      (¬ u.leaves t.maxCells op ∧
        ∃ next, t.perform? op = some next ∧ Refines next (u.perform op)) := by
  cases op with
  | moveRight =>
    cases limit : t.atLimit with
    | true =>
      exact .inl ⟨h.atLimit_iff_leaves.mp limit, by simp [Tape.perform?, Tape.moveRight?, limit]⟩
    | false =>
      refine .inr ⟨fun leaves => ?_, t.moveRight, ?_, h.moveRight limit⟩
      · rw [h.atLimit_iff_leaves.mpr leaves] at limit
        cases limit
      · simp [Tape.perform?, Tape.moveRight?, limit]
  | moveLeft => exact .inr ⟨Unbounded.not_leaves nofun, _, rfl, h.moveLeft⟩
  | increment => exact .inr ⟨Unbounded.not_leaves nofun, _, rfl, h.increment⟩
  | decrement => exact .inr ⟨Unbounded.not_leaves nofun, _, rfl, h.decrement⟩
  | write value => exact .inr ⟨Unbounded.not_leaves nofun, _, rfl, h.write value⟩
  | reset =>
    exact .inr ⟨Unbounded.not_leaves nofun, _, rfl, .blank t.initial_pos t.initial_le_max⟩

end Refines

/-! ## All operations -/

theorem Tape.performAll_cons (t : Tape) (op : TapeOperation) (rest : List TapeOperation) :
    t.performAll (op :: rest) = ((t.perform? op).getD t).performAll rest := rfl

theorem Unbounded.performAll_cons (u : Unbounded) (cap : Nat) (op : TapeOperation)
    (rest : List TapeOperation) :
    u.performAll cap (op :: rest) =
      (if u.leaves cap op then u else u.perform op).performAll cap rest := rfl

/-- No operation changes what a reset leaves. -/
theorem Tape.reset_of_perform? {t next : Tape} {op : TapeOperation}
    (performed : t.perform? op = some next) : next.reset = t.reset := by
  cases op with
  | moveRight =>
    simp only [perform?, moveRight?] at performed
    split at performed
    · cases performed
    · cases performed
      exact t.reset_moveRight
  | _ =>
    cases performed
    rfl

theorem Tape.reset_performAll (t : Tape) (ops : List TapeOperation) :
    (t.performAll ops).reset = t.reset := by
  induction ops generalizing t with
  | nil => rfl
  | cons op rest ih =>
    rw [performAll_cons, ih]
    cases performed : t.perform? op with
    | none => rfl
    | some next => exact reset_of_perform? performed

theorem Refines.performAll {t : Tape} {u : Unbounded} (h : Refines t u)
    (ops : List TapeOperation) :
    Refines (t.performAll ops) (u.performAll t.maxCells ops) := by
  induction ops generalizing t u with
  | nil => exact h
  | cons op rest ih =>
    rw [Tape.performAll_cons, Unbounded.performAll_cons]
    obtain ⟨leaves, refused⟩ | ⟨stays, next, performed, refines⟩ := h.perform op
    · rw [refused, if_pos leaves]
      exact ih h
    · have cap : next.maxCells = t.maxCells :=
        (congrArg Tape.maxCells (Tape.reset_of_perform? performed) :)
      rw [performed, if_neg stays, ← cap]
      exact ih refines

/-- Whatever is done to a new tape, it shows what the tape without an end shows: the same pointer
and the same integers, which are bytes, and zeros where it has no cells.  The pointer is on a cell,
and there are no more cells than the cap allows.  Refused is only a move to the right from the last
cell of the cap, and it changes nothing.  The tape has the least of its lengths that reaches past
the furthest place of the pointer since the last reset. -/
theorem performAll_refines {start cap : Nat} (pos : 0 < start) (le : start ≤ cap)
    (ops : List TapeOperation) :
    ∃ first, Tape.new? start cap = .ok first ∧
      let t := first.performAll ops
      let u := Unbounded.blank.performAll cap ops
      t.pointer = u.pointer ∧
      (∀ i < t.size, ∃ byte, t.cells[i]? = some byte ∧ (byte.toNat : Int) = u.cell i) ∧
      (∀ i, t.size ≤ i → u.cell i = 0) ∧
      (∀ i, 0 ≤ u.cell i ∧ u.cell i ≤ 255) ∧
      t.pointer < t.size ∧ t.size ≤ cap ∧
      (∀ op, t.perform? op = none ↔ op = .moveRight ∧ t.pointer = cap - 1) ∧
      (t.perform? .moveRight = none → t.moveRight = t) ∧
      IsLeast {n | (∃ k, n = min (start * 2 ^ k) cap) ∧ u.furthest < n} t.size := by
  refine ⟨Tape.blank start cap pos le, Tape.new?_of_le (by omega) (by omega), ?_⟩
  intro t u
  have h : Refines t u := (Refines.blank pos le).performAll ops
  have blank : t.reset = Tape.blank start cap pos le := by
    rw [Tape.reset_performAll, Tape.reset_blank]
  have starts : t.initialCells = start := (congrArg Tape.initialCells blank :)
  have capped : t.maxCells = cap := (congrArg Tape.maxCells blank :)
  have inside : t.pointer < t.size := t.pointer_lt
  have upTo : t.size ≤ cap := by
    rw [← capped]
    exact t.size_le_max
  refine ⟨h.pointer, ?_, ?_, ?_, inside, upTo, ?_, ?_, ?_⟩
  · intro i short
    refine ⟨t.cells[i], Array.getElem?_eq_getElem short, ?_⟩
    rw [← h.cell, Tape.cell, Array.getElem?_eq_getElem short, Option.getD_some]
  · intro i beyond
    rw [← h.cell, Tape.cell_of_size_le beyond]
    rfl
  · intro i
    have byte := (t.cell i).toNat_lt
    rw [← h.cell]
    omega
  · intro op
    have last : t.pointer = cap - 1 ↔ u.pointer + 1 = cap := by
      rw [← h.pointer]
      omega
    rw [last]
    obtain ⟨leaves, refused⟩ | ⟨stays, next, performed, _⟩ := h.perform op
    · rw [capped] at leaves
      exact iff_of_true refused leaves
    · rw [capped] at stays
      exact iff_of_false (by simp [performed]) stays
  · intro refused
    refine Tape.moveRight_of_atLimit ?_
    simpa [Tape.perform?, Tape.moveRight?] using refused
  · rw [← starts, ← capped]
    exact h.size

/-- A tape that starts with one cell and may have three grows to two cells, then to three, and
refuses the third move. -/
theorem performAll_refines_threeCells :
    0 < 1 ∧ 1 ≤ 3 ∧ ∃ first, Tape.new? 1 3 = .ok first ∧
      let ops := [.decrement, .moveRight, .write (-300), .moveRight, .moveRight, .moveLeft,
        .moveLeft, .moveLeft, .increment]
      let u := Unbounded.blank.performAll 3 ops
      (first.performAll ops).pointer = 0 ∧
      (first.performAll ops).cells.toList = [0, 212, 0] ∧
      u.furthest = 2 ∧
      IsLeast {n | (∃ k, n = min (1 * 2 ^ k) 3) ∧ u.furthest < n} (first.performAll ops).size := by
  obtain ⟨first, made, refines⟩ := performAll_refines (by decide : 0 < 1) (by decide : 1 ≤ 3)
    [.decrement, .moveRight, .write (-300), .moveRight, .moveRight, .moveLeft, .moveLeft, .moveLeft,
      .increment]
  cases made
  exact ⟨by decide, by decide, _, rfl, rfl, rfl, rfl, refines.2.2.2.2.2.2.2.2⟩

end Brainfuck
