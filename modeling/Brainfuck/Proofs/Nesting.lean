import Brainfuck.Program.Brackets
import Mathlib.Data.List.Sort

/-! # Nesting

Which bracket closes which loop, said by counting, and what the scan of `openPositions` has to do
with it.

* `Level`, `ClosedBy` — a piece of a program with as many openings as closings; a loop and the
  first position behind it up to which the program is level;
* `Unclosed`, `unclosed` — the loops of the first `k` instructions that are not closed there;
* `height` — the number of loops around a position; `Level` is a statement about two heights.

The main results: the scan of a prefix holds exactly its unclosed loops (`reverse_openBefore`),
and `closeOf?` finds exactly the bracket that closes a loop (`closeOf?_eq_some_iff`).  The
ingredient of the first is `openBefore_split`: a loop on the scan's list has been there, on the
same outer loops, ever since it was opened.
-/

namespace Brainfuck

/-- The instructions from `i` up to, but without, `j` open as many loops as they close. -/
def Level (code : List Instruction) (i j : Nat) : Prop :=
  (code.extract i j).count .openLoop = (code.extract i j).count .closeLoop

instance (code : List Instruction) (i j : Nat) : Decidable (Level code i j) :=
  inferInstanceAs (Decidable (_ = _))

/-- The loop opened at `start` is closed at `close`: the first place behind `start` where the
program is level again. -/
structure ClosedBy (code : List Instruction) (start close : Nat) : Prop where
  opens : code[start]? = some .openLoop
  behind : start < close
  inside : close < code.length
  level : Level code start (close + 1)
  first : ∀ j < close, start < j → ¬ Level code start (j + 1)

/-- A loop is opened at `start`, and nothing in front of position `k` closes it. -/
def Unclosed (code : List Instruction) (k start : Nat) : Prop :=
  code[start]? = some .openLoop ∧ ∀ j < k, start < j → ¬ Level code start (j + 1)

instance (code : List Instruction) (k start : Nat) : Decidable (Unclosed code k start) :=
  inferInstanceAs (Decidable (_ ∧ _))

/-- The positions in front of `k` of the loops that are not closed in front of `k`, in order. -/
def unclosed (code : List Instruction) (k : Nat) : List Nat :=
  (List.range k).filter (Unclosed code k)

/-- How much an instruction adds to the depth of nesting. -/
def Instruction.rise : Instruction → Int
  | .openLoop => 1
  | .closeLoop => -1
  | _ => 0

/-- How many more loops the first `k` instructions open than they close. -/
def height (code : List Instruction) (k : Nat) : Int :=
  (code.take k).count .openLoop - (code.take k).count .closeLoop

/-- What the scan holds in front of position `k`. -/
def openBefore (code : List Instruction) (k : Nat) : Except Nat (List Nat) :=
  openPositions (code.take k) 0 []

/-! ## Heights -/

theorem Instruction.neg_one_le_rise (i : Instruction) : -1 ≤ i.rise := by
  cases i <;> decide

@[simp] theorem height_zero (code : List Instruction) : height code 0 = 0 := by
  simp [height]

theorem height_succ {code : List Instruction} {k : Nat} {i : Instruction}
    (here : code[k]? = some i) : height code (k + 1) = height code k + i.rise := by
  simp only [height, List.take_add_one, here, Option.toList_some, List.count_append]
  cases i <;> simp [Instruction.rise] <;> omega

theorem height_of_length_le {code : List Instruction} {k : Nat} (behind : code.length ≤ k) :
    height code k = height code code.length := by
  simp [height, List.take_of_length_le behind]

theorem height_le_height_succ (code : List Instruction) (k : Nat) :
    height code k - 1 ≤ height code (k + 1) := by
  rcases Nat.lt_or_ge k code.length with inside | behind
  · have falls := code[k].neg_one_le_rise
    rw [height_succ (List.getElem?_eq_getElem inside)]
    omega
  · rw [height_of_length_le behind, height_of_length_le (Nat.le_succ_of_le behind)]
    omega

theorem level_iff {code : List Instruction} {i j : Nat} (ordered : i ≤ j) :
    Level code i j ↔ height code j = height code i := by
  have split : code.take j = code.take i ++ code.extract i j := by
    rw [List.extract_eq_take_drop, ← List.take_add, Nat.add_sub_cancel' ordered]
  simp only [Level, height, split, List.count_append]
  omega

/-- Behind a loop that is not closed yet the program stays higher than in front of it. -/
theorem Unclosed.height_lt {code : List Instruction} {k start : Nat}
    (h : Unclosed code k start) {j : Nat} (behind : start < j) (le : j ≤ k) :
    height code start < height code j := by
  obtain ⟨opens, never⟩ := h
  obtain ⟨d, rfl⟩ := Nat.exists_eq_add_of_lt behind
  -- heights fall by one at a time, so they would have to meet the level of the loop
  induction d with
  | zero =>
    have rises : height code (start + 1) = height code start + 1 := height_succ opens
    rw [Nat.add_zero]
    omega
  | succ d ih =>
    have before := ih (by omega) (by omega)
    have falls := height_le_height_succ code (start + d + 1)
    have differs : height code (start + d + 1 + 1) ≠ height code start := fun same =>
      never (start + d + 1) (by omega) (by omega) ((level_iff (by omega)).mpr same)
    rw [← Nat.add_assoc start d 1]
    omega

/-! ## The scan -/

@[simp] theorem openBefore_zero (code : List Instruction) : openBefore code 0 = .ok [] := rfl

theorem openBefore_succ_eq_bind {code : List Instruction} {k : Nat} {i : Instruction}
    (here : code[k]? = some i) :
    openBefore code (k + 1) = (openBefore code k).bind (openPositions [i] k) := by
  have inside : k < code.length := (List.getElem?_eq_some_iff.mp here).1
  have shift : 0 + (code.take k).length = k := by rw [List.length_take]; omega
  rw [openBefore, List.take_add_one, here, Option.toList_some, openPositions_append, shift,
    openBefore]

theorem openBefore_succ {code : List Instruction} {k : Nat} {i : Instruction}
    {opened : List Nat} (here : code[k]? = some i) (h : openBefore code k = .ok opened) :
    openBefore code (k + 1) = openPositions [i] k opened := by
  rw [openBefore_succ_eq_bind here, h]
  rfl

theorem openPositions_single {i : Instruction} {k : Nat} {opened after : List Nat}
    (h : openPositions [i] k opened = .ok after) :
    (i = .openLoop ∧ after = k :: opened) ∨
    (i = .closeLoop ∧ ∃ start, opened = start :: after) ∨
    (i.rise = 0 ∧ after = opened) := by
  cases i with
  | openLoop =>
    cases h
    exact .inl ⟨rfl, rfl⟩
  | closeLoop =>
    cases opened with
    | nil => cases h
    | cons start outer =>
      cases h
      exact .inr (.inl ⟨rfl, start, rfl⟩)
  | _ =>
    cases h
    exact .inr (.inr ⟨rfl, rfl⟩)

theorem openBefore_succ_inv {code : List Instruction} {k : Nat} {after : List Nat}
    (inside : k < code.length) (h : openBefore code (k + 1) = .ok after) :
    ∃ opened, openBefore code k = .ok opened ∧ openPositions [code[k]] k opened = .ok after := by
  rw [openBefore_succ_eq_bind (List.getElem?_eq_getElem inside)] at h
  cases scanned : openBefore code k with
  | error _ => rw [scanned] at h; cases h
  | ok opened => rw [scanned] at h; exact ⟨opened, rfl, h⟩

theorem openBefore_of_le {code : List Instruction} {j k : Nat} {opened : List Nat}
    (le : k ≤ code.length) (h : openBefore code k = .ok opened) (before : j ≤ k) :
    ∃ earlier, openBefore code j = .ok earlier := by
  induction k generalizing opened with
  | zero => exact ⟨[], by rw [Nat.le_zero.mp before]; rfl⟩
  | succ k ih =>
    rcases Nat.le_or_eq_of_le_succ before with before | rfl
    · obtain ⟨earlier, scanned, _⟩ := openBefore_succ_inv (by omega) h
      exact ih (by omega) scanned before
    · exact ⟨opened, h⟩

theorem length_openBefore {code : List Instruction} {k : Nat} {opened : List Nat}
    (le : k ≤ code.length) (h : openBefore code k = .ok opened) :
    (opened.length : Int) = height code k := by
  induction k generalizing opened with
  | zero =>
    cases h
    simp
  | succ k ih =>
    obtain ⟨earlier, scanned, taken⟩ := openBefore_succ_inv (by omega) h
    have before := ih (by omega) scanned
    rw [height_succ (List.getElem?_eq_getElem le)]
    rcases openPositions_single taken with ⟨opens, rfl⟩ | ⟨closes, start, rfl⟩ | ⟨plain, rfl⟩
    · simp only [opens, Instruction.rise, List.length_cons]
      omega
    · simp only [closes, Instruction.rise]
      simp only [List.length_cons] at before
      omega
    · omega

/-- A loop on the scan's list has been there, on the same outer loops, ever since it was opened. -/
theorem openBefore_split {code : List Instruction} {k start : Nat} {above outer : List Nat}
    (le : k ≤ code.length) (h : openBefore code k = .ok (above ++ start :: outer)) :
    start < k ∧ code[start]? = some .openLoop ∧ openBefore code start = .ok outer ∧
      ∀ j ≤ k, start < j → ∃ between, openBefore code j = .ok (between ++ start :: outer) := by
  induction k generalizing above with
  | zero => simp at h
  | succ k ih =>
    obtain ⟨earlier, scanned, taken⟩ := openBefore_succ_inv (by omega) h
    -- it is enough that the loop was on the list one instruction earlier
    have held : ∀ between, earlier = between ++ start :: outer →
        start < k + 1 ∧ code[start]? = some .openLoop ∧ openBefore code start = .ok outer ∧
          ∀ j ≤ k + 1, start < j →
            ∃ between, openBefore code j = .ok (between ++ start :: outer) := by
      rintro between rfl
      obtain ⟨before, opens, outside, since⟩ := ih (by omega) scanned
      refine ⟨by omega, opens, outside, fun j upTo behind => ?_⟩
      rcases Nat.le_or_eq_of_le_succ upTo with upTo | rfl
      · exact since j upTo behind
      · exact ⟨above, h⟩
    rcases openPositions_single taken with ⟨opens, same⟩ | ⟨_, top, rfl⟩ | ⟨_, same⟩
    · cases above with
      | nil =>
        obtain ⟨rfl, rfl⟩ := List.cons.inj same
        refine ⟨by omega, by rw [List.getElem?_eq_getElem le, opens], scanned, ?_⟩
        intro j upTo behind
        have last : j = start + 1 := by omega
        exact ⟨[], by rw [last]; exact h⟩
      | cons _ above => exact held above (List.cons.inj same).2.symm
    · exact held (top :: above) rfl
    · exact held above same.symm

theorem openBefore_cons {code : List Instruction} {k start : Nat} {outer : List Nat}
    (le : k ≤ code.length) (h : openBefore code k = .ok (start :: outer)) :
    start < k ∧ code[start]? = some .openLoop ∧ openBefore code start = .ok outer := by
  rw [← List.nil_append (start :: outer)] at h
  obtain ⟨before, opens, outside, _⟩ := openBefore_split le h
  exact ⟨before, opens, outside⟩

theorem pairwise_openBefore {code : List Instruction} {k : Nat} {opened : List Nat}
    (le : k ≤ code.length) (h : openBefore code k = .ok opened) : opened.Pairwise (· > ·) := by
  induction opened generalizing k with
  | nil => exact .nil
  | cons start outer ih =>
    obtain ⟨before, _, outside⟩ := openBefore_cons le h
    refine .cons (fun other member => ?_) (ih (by omega) outside)
    obtain ⟨above, rest, rfl⟩ := List.append_of_mem member
    exact (openBefore_split (by omega) outside).1

theorem openBefore_of_height_lt {code : List Instruction} {k start : Nat} {outer : List Nat}
    (le : k ≤ code.length) (behind : start < k) (opens : code[start]? = some .openLoop)
    (outside : openBefore code start = .ok outer)
    (higher : ∀ j ≤ k, start < j → height code start < height code j) :
    ∃ above, openBefore code k = .ok (above ++ start :: outer) := by
  obtain ⟨d, rfl⟩ := Nat.exists_eq_add_of_lt behind
  induction d with
  | zero =>
    refine ⟨[], ?_⟩
    rw [Nat.add_zero, openBefore_succ opens outside]
    rfl
  | succ d ih =>
    obtain ⟨above, scanned⟩ := ih (by omega) (by omega) fun j upTo => higher j (by omega)
    have here : code[start + d + 1]? = some code[start + d + 1] := List.getElem?_eq_getElem le
    rw [← Nat.add_assoc start d 1, openBefore_succ here scanned]
    cases shape : code[start + d + 1] with
    | openLoop => exact ⟨(start + d + 1) :: above, rfl⟩
    | closeLoop =>
      cases above with
      | nil =>
        -- closing the loop itself would bring the height down to where it was in front of it
        have high := higher (start + d + 1 + 1) (by omega) (by omega)
        have below := length_openBefore (by omega) outside
        have inside := length_openBefore (by omega) scanned
        have falls := height_succ here
        rw [shape, Instruction.rise] at falls
        simp only [List.nil_append, List.length_cons] at inside
        omega
      | cons top above => exact ⟨above, rfl⟩
    | _ => exact ⟨above, rfl⟩

/-- The scan of a prefix holds exactly the loops that the prefix leaves open. -/
theorem mem_openBefore_iff {code : List Instruction} {k start : Nat} {opened : List Nat}
    (le : k ≤ code.length) (h : openBefore code k = .ok opened) :
    start ∈ opened ↔ start < k ∧ Unclosed code k start := by
  constructor
  · intro member
    obtain ⟨above, outer, rfl⟩ := List.append_of_mem member
    obtain ⟨before, opens, outside, since⟩ := openBefore_split le h
    refine ⟨before, opens, fun j inside behind level => ?_⟩
    -- the loop is held behind `j`, so the program is still higher there than in front of it
    obtain ⟨between, scanned⟩ := since (j + 1) inside (by omega)
    have within := length_openBefore (by omega) scanned
    have below := length_openBefore (by omega) outside
    have same := (level_iff (by omega)).mp level
    simp only [List.length_append, List.length_cons] at within
    omega
  · rintro ⟨before, never⟩
    obtain ⟨outer, outside⟩ := openBefore_of_le le h (Nat.le_of_lt before)
    obtain ⟨above, scanned⟩ := openBefore_of_height_lt le before never.1 outside
      fun j upTo behind => never.height_lt behind upTo
    rw [h] at scanned
    cases scanned
    simp

/-- The list of the scan, read from the outside in, is the list of the unclosed loops. -/
theorem reverse_openBefore {code : List Instruction} {k : Nat} {opened : List Nat}
    (le : k ≤ code.length) (h : openBefore code k = .ok opened) :
    opened.reverse = unclosed code k := by
  have listed : opened.reverse.Pairwise (· < ·) :=
    List.pairwise_reverse.mpr (pairwise_openBefore le h)
  have counted : (unclosed code k).Pairwise (· < ·) := List.pairwise_lt_range.filter _
  -- two sorted lists are the same when they have the same members
  refine listed.eq_of_mem_iff counted fun start => ?_
  rw [List.mem_reverse, mem_openBefore_iff le h]
  simp [unclosed]

theorem count_closeLoop_le {code : List Instruction} {j k : Nat} {opened : List Nat}
    (le : k ≤ code.length) (h : openBefore code k = .ok opened) (before : j ≤ k) :
    (code.take j).count .closeLoop ≤ (code.take j).count .openLoop := by
  obtain ⟨earlier, scanned⟩ := openBefore_of_le le h before
  have counted := length_openBefore (by omega) scanned
  simp only [height] at counted
  omega

/-! ## Closing brackets -/

namespace ClosedBy

variable {code : List Instruction} {start close : Nat}

theorem unclosed (h : ClosedBy code start close) : Unclosed code close start :=
  ⟨h.opens, h.first⟩

theorem unclosed_iff (h : ClosedBy code start close) {k : Nat} :
    Unclosed code k start ↔ k ≤ close := by
  refine ⟨fun never => ?_, fun upTo => ⟨h.opens, fun j before => h.first j (by omega)⟩⟩
  by_contra beyond
  exact never.2 close (by omega) h.behind h.level

theorem height_eq (h : ClosedBy code start close) :
    height code (close + 1) = height code start :=
  (level_iff (Nat.le_succ_of_le (Nat.le_of_lt h.behind))).mp h.level

theorem closes (h : ClosedBy code start close) : code[close]? = some .closeLoop := by
  have inside := h.inside
  have here : code[close]? = some code[close] := List.getElem?_eq_getElem h.inside
  have high := h.unclosed.height_lt h.behind (Nat.le_refl close)
  have level := h.height_eq
  rw [height_succ here] at level
  rw [here]
  -- the program is higher inside the loop, and only a closing bracket brings it down
  cases shape : code[close] with
  | closeLoop => rfl
  | _ =>
    simp only [shape, Instruction.rise] at level
    omega

theorem unique {other : Nat} (h : ClosedBy code start close) (h' : ClosedBy code start other) :
    close = other := by
  rcases Nat.lt_trichotomy close other with before | same | behind
  · exact absurd h.level (h'.first close before h.behind)
  · exact same
  · exact absurd h'.level (h.first other behind h'.behind)

theorem openBefore_close (h : ClosedBy code start close) {outer : List Nat}
    (outside : openBefore code start = .ok outer) :
    openBefore code close = .ok (start :: outer) := by
  obtain ⟨above, scanned⟩ := openBefore_of_height_lt (Nat.le_of_lt h.inside) h.behind h.opens
    outside fun j upTo behind => h.unclosed.height_lt behind upTo
  have within := length_openBefore (Nat.le_of_lt h.inside) scanned
  have below := length_openBefore (Nat.le_of_lt (Nat.lt_trans h.behind h.inside)) outside
  have falls := height_succ h.closes
  have level := h.height_eq
  simp only [Instruction.rise] at falls
  simp only [List.length_append, List.length_cons] at within
  -- the heights leave no room for a loop inside this one
  have empty : above.length = 0 := by omega
  rw [scanned, List.length_eq_zero_iff.mp empty, List.nil_append]

theorem openBefore_behind (h : ClosedBy code start close) {outer : List Nat}
    (outside : openBefore code start = .ok outer) :
    openBefore code (close + 1) = .ok outer := by
  rw [openBefore_succ h.closes (h.openBefore_close outside)]
  rfl

end ClosedBy

namespace Program

theorem closeFrom_succ {p : Program} {position depth : Nat} {i : Instruction} (bound : Nat)
    (here : p[position]? = some i) (deep : 1 ≤ depth) :
    (depth + i.rise = 0 ∧ p.closeFrom (bound + 1) position depth = some position) ∨
    ∃ deeper : Nat, 1 ≤ deeper ∧ (deeper : Int) = depth + i.rise ∧
      p.closeFrom (bound + 1) position depth = p.closeFrom bound (position + 1) deeper := by
  cases i with
  | openLoop =>
    exact .inr ⟨depth + 1, by omega, by simp [Instruction.rise], by simp [closeFrom, here]⟩
  | closeLoop =>
    rcases Nat.eq_or_lt_of_le deep with rfl | deep
    · exact .inl ⟨rfl, by simp [closeFrom, here]⟩
    · refine .inr ⟨depth - 1, by omega, by simp only [Instruction.rise]; omega, ?_⟩
      have goesOn : ¬ depth ≤ 1 := by omega
      simp [closeFrom, here, goesOn]
  | _ => exact .inr ⟨depth, deep, by simp [Instruction.rise], by simp [closeFrom, here]⟩

/-- What the forward search finds is the first place where the program has fallen by `depth`. -/
theorem height_of_closeFrom {p : Program} {bound position depth close : Nat} (deep : 1 ≤ depth)
    (h : p.closeFrom bound position depth = some close) :
    position ≤ close ∧ close < p.size ∧
      height p.toList (close + 1) + depth = height p.toList position ∧
      ∀ j < close, position ≤ j → height p.toList position < height p.toList (j + 1) + depth := by
  induction bound generalizing position depth with
  | zero => simp [closeFrom] at h
  | succ bound ih =>
    cases here : p[position]? with
    | none => simp [closeFrom, here] at h
    | some i =>
      have listed : p.toList[position]? = some i := by rw [Array.getElem?_toList, here]
      have rises := height_succ listed
      have inside : position < p.size := (Array.getElem?_eq_some_iff.mp here).1
      rcases closeFrom_succ bound here deep with ⟨falls, stops⟩ | ⟨_, high, fits, goesOn⟩
      · rw [stops] at h
        cases h
        exact ⟨Nat.le_refl _, inside, by omega, fun j before behind => by omega⟩
      · rw [goesOn] at h
        obtain ⟨behind, within, level, first⟩ := ih high h
        -- the height changes by as much as the depth does, so their sum stays the same
        refine ⟨by omega, within, by omega, fun j before upTo => ?_⟩
        rcases Nat.eq_or_lt_of_le upTo with rfl | upTo
        · omega
        · have later := first j before upTo
          omega

theorem height_of_closeFrom_eq_none {p : Program} {bound position depth : Nat} (deep : 1 ≤ depth)
    (far : p.size ≤ position + bound) (h : p.closeFrom bound position depth = none) :
    ∀ j < p.size, position ≤ j → height p.toList position < height p.toList (j + 1) + depth := by
  induction bound generalizing position depth with
  | zero => intro j inside behind; omega
  | succ bound ih =>
    intro j inside behind
    have here : p[position]? = some p[position] := Array.getElem?_eq_getElem (by omega)
    have listed : p.toList[position]? = some p[position] := by rw [Array.getElem?_toList, here]
    have rises := height_succ listed
    rcases closeFrom_succ bound here deep with ⟨_, stops⟩ | ⟨_, high, fits, goesOn⟩
    · rw [stops] at h
      cases h
    · rw [goesOn] at h
      rcases Nat.eq_or_lt_of_le behind with rfl | behind
      · omega
      · have later := ih high (by omega) h j inside behind
        omega

theorem unclosed_of_closeOf?_eq_none {p : Program} {start : Nat}
    (opens : p.toList[start]? = some .openLoop) (h : p.closeOf? start = none) :
    Unclosed p.toList p.size start := by
  have rises := height_succ opens
  refine ⟨opens, fun j inside behind level => ?_⟩
  have high := height_of_closeFrom_eq_none (Nat.le_refl 1) (by omega) h j inside behind
  have same := (level_iff (by omega)).mp level
  simp only [Instruction.rise] at rises
  omega

theorem closedBy_of_closeOf? {p : Program} {start close : Nat}
    (opens : p.toList[start]? = some .openLoop) (h : p.closeOf? start = some close) :
    ClosedBy p.toList start close := by
  have rises := height_succ opens
  simp only [Instruction.rise] at rises
  obtain ⟨behind, inside, level, first⟩ := height_of_closeFrom (Nat.le_refl 1) h
  refine ⟨opens, behind, inside, (level_iff (by omega)).mpr (by omega), ?_⟩
  intro j before behind same
  have high := first j before behind
  have low := (level_iff (by omega)).mp same
  omega

/-- The forward search finds exactly the bracket that closes the loop. -/
theorem closeOf?_eq_some_iff {p : Program} {start close : Nat}
    (opens : p.toList[start]? = some .openLoop) :
    p.closeOf? start = some close ↔ ClosedBy p.toList start close := by
  refine ⟨closedBy_of_closeOf? opens, fun closed => ?_⟩
  cases found : p.closeOf? start with
  | none =>
    have never := unclosed_of_closeOf?_eq_none opens found
    exact absurd closed.level (never.2 close closed.inside closed.behind)
  | some other => rw [(closedBy_of_closeOf? opens found).unique closed]

/-! ## Accepted and rejected programs -/

theorem openBefore_size (p : Program) :
    openBefore p.toList p.size = openPositions p.toList 0 [] := by
  rw [openBefore, ← Array.length_toList, List.take_length]

theorem checkBrackets_eq_ok_iff {p : Program} :
    p.checkBrackets = .ok () ↔ openBefore p.toList p.size = .ok [] := by
  rw [openBefore_size, checkBrackets_eq_ok_iff_openPositions]

theorem checkBrackets_of_closeLoop {p : Program} {k : Nat}
    (closes : p.toList[k]? = some .closeLoop) (closed : openBefore p.toList k = .ok []) :
    p.checkBrackets = .error (.unmatchedClose k) := by
  have inside : k < p.toList.length := (List.getElem?_eq_some_iff.mp closes).1
  have split : p.toList = p.toList.take k ++ .closeLoop :: p.toList.drop (k + 1) := by
    rw [List.getElem?_eq_getElem inside, Option.some.injEq] at closes
    rw [← closes, ← List.drop_eq_getElem_cons inside, List.take_append_drop]
  have stuck : openPositions p.toList 0 [] = .error k := by
    have shift : 0 + (p.toList.take k).length = k := by rw [List.length_take]; omega
    rw [split, openPositions_append, shift, ← openBefore, closed]
    rfl
  rw [checkBrackets, stuck]

/-- When a loop is never closed, a loop is reported that is opened there or further inside. -/
theorem checkBrackets_of_unclosed {p : Program} {start : Nat} {outer : List Nat}
    (outside : openBefore p.toList start = .ok outer) (never : Unclosed p.toList p.size start) :
    ∃ inner ≥ start, p.toList[inner]? = some .openLoop ∧
      p.checkBrackets = .error (.unmatchedOpen inner) := by
  have inside : start < p.size := (List.getElem?_eq_some_iff.mp never.1).1
  have le : p.size ≤ p.toList.length := Nat.le_refl _
  obtain ⟨above, scanned⟩ := openBefore_of_height_lt le inside never.1 outside
    fun j upTo behind => never.height_lt behind upTo
  -- the innermost loop that is left is the one reported
  have sorted := pairwise_openBefore le scanned
  cases above with
  | nil =>
    rw [openBefore_size] at scanned
    exact ⟨start, Nat.le_refl _, never.1, by rw [checkBrackets, scanned]; rfl⟩
  | cons inner above =>
    have opens := (openBefore_cons le scanned).2.1
    rw [openBefore_size] at scanned
    have deeper : start < inner := List.rel_of_pairwise_cons sorted (by simp)
    exact ⟨inner, Nat.le_of_lt deeper, opens, by rw [checkBrackets, scanned]; rfl⟩

theorem exists_closedBy {p : Program} (accepted : p.checkBrackets = .ok ()) {start : Nat}
    (opens : p.toList[start]? = some .openLoop) : ∃ close, ClosedBy p.toList start close := by
  cases found : p.closeOf? start with
  | some close => exact ⟨close, closedBy_of_closeOf? opens found⟩
  | none =>
    have scanned := checkBrackets_eq_ok_iff.mp accepted
    have inside : start < p.size := (List.getElem?_eq_some_iff.mp opens).1
    have never := unclosed_of_closeOf?_eq_none opens found
    have held := (mem_openBefore_iff (Nat.le_refl _) scanned).mpr ⟨inside, never⟩
    cases held

end Program

end Brainfuck
