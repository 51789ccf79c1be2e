import Brainfuck.Tape.View
import Mathlib.Data.List.Sort

/-! # Windows of the tape

Which cells a window shows.  A window is asked for by a start and a count, and what is wanted is the
part of that range that lies on the tape.

* `Tape.between`, `Tape.clipped` — the cells between two indices, and those of a range that are on
  the tape;
* `window_eq_between` — the two indices that a window is between;
* `Misread`, `Torn` — the ranges, and the pairs of neighbouring ranges, with a bound in front of the
  tape that is taken for an index near its end;
* `window_eq_clipped_iff` — a window is what is wanted of it, unless its range is misread.

Whether two windows are the same never hangs on the bytes in the cells: where the indices differ the
lengths do, so all that is left to compare are bounds.
-/

namespace Brainfuck

/-- A range whose window is not the part of it that lies on a tape of `size` cells. -/
inductive Misread (size start count : Int) : Prop
  /-- It begins in front of the tape and reaches into it; its start is counted from the end. -/
  | start (near : -size < start) (before : start < 0) (reaches : 0 < start + count)
  /-- It lies in front of the tape altogether; its end is counted from the end of the tape. -/
  | stop (before : start < 0) (positive : 0 < count) (near : -size < start + count)
      (short : start + count < 0)
  /-- Its count is negative, and leads to an end that is counted from the end of the tape. -/
  | count (inside : 0 ≤ start) (short : start + count < 0) (near : -size < count)

/-- Two neighbouring ranges whose windows are not the two parts of one window, on a tape of `size`
cells. -/
inductive Torn (size start first second : Int) : Prop
  /-- Only the first range begins in front of the tape. -/
  | start (near : -size < start) (before : start < 0) (inside : 0 ≤ start + first)
      (short : first < size) (positive : 0 < second)
  /-- Both do, and the second one reaches into the tape. -/
  | middle (near : -size < start + first) (before : start + first < 0)
      (inside : 0 ≤ start + first + second) (short : second < size) (positive : 0 < first)

namespace Tape

variable {t : Tape} {first last first' last' : Nat} {start count : Int}

/-- The bytes of the cells from the index `first` up to, but without, `last`. -/
def between (t : Tape) (first last : Nat) : List UInt8 :=
  (List.range' first (last - first)).map t.cell

/-- The bytes of the cells of a range that are on the tape, in the order of their indices. -/
def clipped (t : Tape) (start count : Int) : List UInt8 :=
  ((List.range t.size).filter fun i : Nat => start ≤ i ∧ i < start + count).map t.cell

/-! ## Cells between two indices -/

@[simp] theorem length_between (t : Tape) (first last : Nat) :
    (t.between first last).length = last - first := by
  simp [between]

theorem between_eq_nil_iff : t.between first last = [] ↔ last ≤ first := by
  rw [← List.length_eq_zero_iff, length_between, Nat.sub_eq_zero_iff_le]

theorem between_append (before : first ≤ last) (behind : last ≤ last') :
    t.between first last ++ t.between last last' = t.between first last' := by
  have whole : first + (last - first) = last := Nat.add_sub_cancel' before
  have sum : last - first + (last' - last) = last' - first := by omega
  have indices := @List.range'_append_1 first (last - first) (last' - last)
  rw [whole, sum] at indices
  rw [between, between, ← List.map_append, indices]
  rfl

/-- Cells between indices tell these, as far as there are cells between the outer ones. -/
theorem between_eq_iff_of_le (inner : first' ≤ first) (inner' : last ≤ last') :
    t.between first last = t.between first' last' ↔
      last' ≤ first' ∨ (first = first' ∧ last = last') := by
  constructor
  · intro same
    have lengths := congrArg List.length same
    simp only [length_between] at lengths
    omega
  · rintro (empty | ⟨rfl, rfl⟩)
    · rw [between_eq_nil_iff.mpr empty, between_eq_nil_iff.mpr (by omega)]
    · rfl

/-- Neighbouring pieces make up the whole if the index between them is between the outer ones,
whichever of these comes first. -/
theorem between_append_eq_iff {middle : Nat} :
    t.between first middle ++ t.between middle last = t.between first last ↔
      (first ≤ middle ∧ middle ≤ last) ∨ (last ≤ middle ∧ middle ≤ first) := by
  constructor
  · intro whole
    have lengths := congrArg List.length whole
    simp only [List.length_append, length_between] at lengths
    omega
  · rintro (⟨before, behind⟩ | ⟨behind, before⟩)
    · exact between_append before behind
    · rw [between_eq_nil_iff.mpr before, between_eq_nil_iff.mpr behind,
        between_eq_nil_iff.mpr (Nat.le_trans behind before), List.append_nil]

/-! ## The indices of a window -/

theorem clampBound_natCast (t : Tape) (bound : Nat) : t.clampBound bound = min bound t.size := by
  rw [clampBound, if_neg (by omega), Int.toNat_natCast]

theorem clampBound_min (t : Tape) (bound : Int) :
    t.clampBound (min bound t.size) = t.clampBound bound := by
  have positive : 0 ≤ (t.size : Int) := Int.natCast_nonneg _
  unfold clampBound
  split <;> split <;> omega

theorem window_eq_between (t : Tape) (start count : Int) :
    t.window start count = t.between (t.clampBound start) (t.clampBound (start + count)) := by
  have inside : t.clampBound (start + count) ≤ t.cells.size := by
    have size : t.cells.size = t.size := rfl
    unfold clampBound
    split <;> omega
  rw [window, clampBound_min]
  refine List.ext_getElem ?_ fun i there there' => ?_
  · simp only [Array.length_toList, Array.size_extract, length_between]
    omega
  · rw [Array.length_toList, Array.size_extract] at there
    have index : t.clampBound start + i < t.cells.size := by omega
    simp [between, cell, index]

theorem clipped_eq_between (t : Tape) (start count : Int) :
    t.clipped start count =
      t.between (min start t.size).toNat (min (start + count) t.size).toNat := by
  have listed : ((List.range t.size).filter fun i : Nat => start ≤ i ∧ i < start + count).Pairwise
      (· < ·) := List.pairwise_lt_range.filter _
  have counted : (List.range' (min start t.size).toNat
      ((min (start + count) t.size).toNat - (min start t.size).toNat)).Pairwise (· < ·) :=
    List.pairwise_lt_range'
  -- two sorted lists are the same when they have the same members
  refine congrArg (List.map t.cell) (listed.eq_of_mem_iff counted fun i => ?_)
  simp only [List.mem_filter, List.mem_range, List.mem_range'_1, decide_eq_true_eq]
  omega

theorem clipped_eq_nil (t : Tape) (empty : count ≤ 0) : t.clipped start count = [] := by
  rw [clipped_eq_between, between_eq_nil_iff]
  omega

/-! ## Bounds in front of the tape -/

theorem misread_iff {size : Int} :
    Misread size start count ↔
      (-size < start ∧ start < 0 ∧ 0 < start + count) ∨
      (start < 0 ∧ 0 < count ∧ -size < start + count ∧ start + count < 0) ∨
      (0 ≤ start ∧ start + count < 0 ∧ -size < count) := by
  constructor
  · rintro (⟨near, before, reaches⟩ | ⟨before, positive, near, short⟩ | ⟨inside, short, near⟩)
    · exact .inl ⟨near, before, reaches⟩
    · exact .inr (.inl ⟨before, positive, near, short⟩)
    · exact .inr (.inr ⟨inside, short, near⟩)
  · rintro (⟨near, before, reaches⟩ | ⟨before, positive, near, short⟩ | ⟨inside, short, near⟩)
    · exact .start near before reaches
    · exact .stop before positive near short
    · exact .count inside short near

theorem torn_iff {size first second : Int} :
    Torn size start first second ↔
      (-size < start ∧ start < 0 ∧ 0 ≤ start + first ∧ first < size ∧ 0 < second) ∨
      (-size < start + first ∧ start + first < 0 ∧ 0 ≤ start + first + second ∧ second < size ∧
        0 < first) := by
  constructor
  · rintro (⟨near, before, inside, short, positive⟩ | ⟨near, before, inside, short, positive⟩)
    · exact .inl ⟨near, before, inside, short, positive⟩
    · exact .inr ⟨near, before, inside, short, positive⟩
  · rintro (⟨near, before, inside, short, positive⟩ | ⟨near, before, inside, short, positive⟩)
    · exact .start near before inside short positive
    · exact .middle near before inside short positive

/-- A bound that is not negative is cut at the end of the tape. -/
theorem clampBound_of_nonneg (t : Tape) {bound : Int} (nonneg : 0 ≤ bound) :
    t.clampBound bound = (min bound t.size).toNat := by
  rw [clampBound, if_neg (Int.not_lt.mpr nonneg)]
  omega

/-- A negative one counts from there. -/
theorem clampBound_of_neg (t : Tape) {bound : Int} (neg : bound < 0) :
    t.clampBound bound = (bound + t.size).toNat := by
  rw [clampBound, if_pos neg]

theorem window_eq_clipped_iff_not_misread (t : Tape) (start count : Int) :
    t.window start count = t.clipped start count ↔ ¬ Misread t.size start count := by
  rw [window_eq_between, misread_iff]
  rcases lt_or_ge 0 (start + count) with reaches | short
  · -- both ranges end at one index, and what is wanted begins in front of what is shown
    rw [clipped_eq_between, t.clampBound_of_nonneg (Int.le_of_lt reaches)]
    rcases lt_or_ge start 0 with before | inside
    · rw [t.clampBound_of_neg before, between_eq_iff_of_le (by omega) (Nat.le_refl _)]
      omega
    · rw [t.clampBound_of_nonneg inside]
      exact iff_of_true rfl (by omega)
  · have nothing : t.clipped start count = [] := by
      rw [clipped_eq_between, between_eq_nil_iff]
      omega
    rw [nothing, between_eq_nil_iff]
    unfold clampBound
    split <;> split <;> omega

theorem window_append_iff_not_torn (t : Tape) {first second : Int} (nonneg : 0 ≤ first)
    (nonneg' : 0 ≤ second) :
    t.window start first ++ t.window (start + first) second = t.window start (first + second) ↔
      ¬ Torn t.size start first second := by
  have size : 0 ≤ (t.size : Int) := Int.natCast_nonneg _
  rw [window_eq_between, window_eq_between, window_eq_between, ← Int.add_assoc,
    between_append_eq_iff, torn_iff]
  rcases lt_or_ge start 0 with before | inside
  · rw [t.clampBound_of_neg before]
    rcases lt_or_ge (start + first) 0 with short | reaches
    · rw [t.clampBound_of_neg short]
      rcases lt_or_ge (start + first + second) 0 with short' | reaches'
      · -- all three count from the end of the tape, and in their order
        rw [t.clampBound_of_neg short']
        exact iff_of_true (.inl ⟨by omega, by omega⟩) (by omega)
      · -- the last bound counts from the start, so it can fall in front of the middle one
        rw [t.clampBound_of_nonneg reaches']
        omega
    · -- only the first bound counts from the end
      rw [t.clampBound_of_nonneg reaches, t.clampBound_of_nonneg (by omega)]
      omega
  · rw [t.clampBound_of_nonneg inside, t.clampBound_of_nonneg (by omega),
      t.clampBound_of_nonneg (by omega)]
    exact iff_of_true (.inl ⟨by omega, by omega⟩) (by omega)

/-- A window is the part of its range that lies on the tape, unless the range is misread, when a
bound in front of the tape is taken for one near its end.  A window of no cells is empty, unless its
end is taken for one near the end of the tape.  The windows of two neighbouring ranges make up the
window of both, unless the ranges are torn apart.  None of that happens to a range from an index
that is not negative with a count that is not negative. -/
theorem window_eq_clipped_iff (t : Tape) (start : Int) :
    (∀ count, t.window start count = t.clipped start count ↔ ¬ Misread t.size start count) ∧
    (∀ count ≤ 0, t.window start count = [] ↔
      ¬ (0 ≤ start ∧ start + count < 0 ∧ -t.size < count)) ∧
    (∀ first second, 0 ≤ first → 0 ≤ second →
      (t.window start first ++ t.window (start + first) second = t.window start (first + second) ↔
        ¬ Torn t.size start first second)) ∧
    (0 ≤ start → ∀ first second, 0 ≤ first → 0 ≤ second →
      ¬ Misread t.size start first ∧ ¬ Torn t.size start first second) := by
  refine ⟨t.window_eq_clipped_iff_not_misread start, fun count empty => ?_,
    fun first second nonneg nonneg' => t.window_append_iff_not_torn nonneg nonneg',
    fun inside first second nonneg nonneg' => ?_⟩
  · rw [← t.clipped_eq_nil empty, window_eq_clipped_iff_not_misread, misread_iff]
    omega
  · rw [misread_iff, torn_iff]
    omega

/-- A tape of four cells with a byte in the third one. -/
def marked : Tape :=
  (blank 4 4 (by decide) (by decide)).moveRight.moveRight.put 7

/-- A range that begins in front of the tape and ends behind its start is shown right if it begins
far enough in front. -/
theorem window_eq_clipped_iff_farInFront :
    ∃ t : Tape, t = marked ∧ t.window (-4) 7 = [0, 0, 7] ∧ t.window (-4) 7 = t.clipped (-4) 7 ∧
      t.window (-4) 5 ++ t.window 1 2 = t.window (-4) 7 ∧ t.window 1 (-4) = [] := by
  obtain ⟨shown, empty, parts, _⟩ := marked.window_eq_clipped_iff (-4)
  obtain ⟨_, empty', _⟩ := marked.window_eq_clipped_iff 1
  refine ⟨marked, rfl, by decide, (shown 7).mpr ?_, (parts 5 2 (by decide) (by decide)).mpr ?_,
    (empty' (-4) (by decide)).mpr (by decide)⟩
  · rw [misread_iff]
    decide
  · rw [torn_iff]
    decide

/-- Windows that are not what is wanted of them: a cell of a range without one on the tape, cells
where none are asked for, and a cell that only one of two neighbouring ranges has. -/
theorem window_counts_from_end :
    (marked.window (-2) 1 = [7] ∧ marked.clipped (-2) 1 = []) ∧
    (marked.window 1 (-2) = [0, 7] ∧ marked.clipped 1 (-2) = []) ∧
    marked.window (-1) 1 ++ marked.window 0 3 = [0, 0, 7] ∧ marked.window (-1) 4 = [] := by
  decide

end Tape

end Brainfuck
