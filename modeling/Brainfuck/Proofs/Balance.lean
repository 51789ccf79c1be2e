import Brainfuck.Proofs.Block
import Brainfuck.Proofs.Nesting
import Mathlib.Order.Bounds.Basic

/-! # Balanced programs

What the check of the brackets accepts, and which bracket it names in a program that it does not
accept.

* `Derivable` — the grammar of programs;
* `Balanced` — the same streams by counting;
* `Overclosed`, `NeverClosed` — the places of brackets without a partner;
* `checkBrackets_verdict` — the check accepts the derivable streams, and else names the first
  place that closes too much, or the last loop that nothing closes.

The scan stops with no loop open (`exists_of_openPositions_eq_error`).  So the prefix in front of
the bracket that it stops at is level and one instruction further it is too low, which gives the
first of the two places.  The second is the head of the list that the scan ends with.
-/

namespace Brainfuck

/-- The grammar of programs: nothing, a plain command in front of a program, or a loop around one
in front of another. -/
inductive Derivable : List Instruction → Prop
  | nothing : Derivable []
  | command (c : PlainCommand) {rest : List Instruction} (behind : Derivable rest) :
    Derivable (c.instruction :: rest)
  | loop {body rest : List Instruction} (inside : Derivable body) (behind : Derivable rest) :
    Derivable (.openLoop :: (body ++ .closeLoop :: rest))

/-- No prefix closes more loops than it opens, and the whole opens as many as it closes. -/
structure Balanced (code : List Instruction) : Prop where
  prefixes : ∀ k, (code.take k).count .closeLoop ≤ (code.take k).count .openLoop
  level : code.count .openLoop = code.count .closeLoop

/-- The instructions up to and with the one at `i` close more loops than they open. -/
def Overclosed (code : List Instruction) (i : Nat) : Prop :=
  (code.take (i + 1)).count .openLoop < (code.take (i + 1)).count .closeLoop

/-- A loop is opened at `i`, and no bracket of the program closes it. -/
def NeverClosed (code : List Instruction) (i : Nat) : Prop :=
  code[i]? = some .openLoop ∧ ∀ close, ¬ ClosedBy code i close

/-! ## The grammar -/

theorem Derivable.of_block (b : Block) : Derivable b.code := by
  induction b with
  | nil => exact .nothing
  | command c _ ih => exact .command c ih
  | loop _ _ ihBody ih => exact .loop ihBody ih

theorem Derivable.exists_block {code : List Instruction} (h : Derivable code) :
    ∃ b : Block, b.code = code := by
  induction h with
  | nothing => exact ⟨.nil, rfl⟩
  | command c _ ih =>
    obtain ⟨b, rfl⟩ := ih
    exact ⟨.command c b, rfl⟩
  | loop _ _ ihInside ihBehind =>
    obtain ⟨body, rfl⟩ := ihInside
    obtain ⟨b, rfl⟩ := ihBehind
    exact ⟨.loop body b, rfl⟩

theorem Program.checkBrackets_eq_ok_iff_derivable {p : Program} :
    p.checkBrackets = .ok () ↔ Derivable p.toList := by
  constructor
  · intro accepted
    obtain ⟨b, written, _⟩ := checkBrackets_eq_ok_iff_block.mp accepted
    exact written ▸ .of_block b
  · intro derivable
    obtain ⟨b, written⟩ := derivable.exists_block
    exact checkBrackets_of_code written

/-! ## Where the scan stops -/

/-- The scan stops at a closing bracket in front of which it holds no loop. -/
theorem exists_of_openPositions_eq_error {code : List Instruction} {position stop : Nat}
    {opened : List Nat} (h : openPositions code position opened = .error stop) :
    ∃ k, stop = position + k ∧ code[k]? = some .closeLoop ∧
      openPositions (code.take k) position opened = .ok [] := by
  induction code generalizing position opened with
  | nil => cases h
  | cons i code ih =>
    by_cases opens : i = .openLoop
    · subst opens
      obtain ⟨k, rfl, closes, scanned⟩ := ih h
      exact ⟨k + 1, by omega, closes, scanned⟩
    by_cases closes : i = .closeLoop
    · subst closes
      cases opened with
      | nil =>
        cases h
        exact ⟨0, rfl, rfl, rfl⟩
      | cons start outer =>
        obtain ⟨k, rfl, closes, scanned⟩ := ih h
        exact ⟨k + 1, by omega, closes, scanned⟩
    · obtain ⟨c, rfl⟩ := PlainCommand.exists_instruction_eq opens closes
      rw [c.openPositions_instruction] at h
      obtain ⟨k, rfl, closes, scanned⟩ := ih h
      refine ⟨k + 1, by omega, closes, ?_⟩
      rw [List.take_succ_cons, c.openPositions_instruction]
      exact scanned

theorem openBefore_length (code : List Instruction) :
    openBefore code code.length = openPositions code 0 [] := by
  rw [openBefore, List.take_length]

theorem overclosed_iff_height {code : List Instruction} {i : Nat} :
    Overclosed code i ↔ height code (i + 1) < 0 := by
  simp only [Overclosed, height]
  omega

theorem isLeast_overclosed {code : List Instruction} {stop : Nat}
    (stopped : openPositions code 0 [] = .error stop) :
    IsLeast {i | Overclosed code i} stop := by
  obtain ⟨k, rfl, closes, scanned⟩ := exists_of_openPositions_eq_error stopped
  have inside : k < code.length := (List.getElem?_eq_some_iff.mp closes).1
  rw [Nat.zero_add]
  constructor
  · have level := length_openBefore (Nat.le_of_lt inside) scanned
    have falls := height_succ closes
    simp only [Instruction.rise] at falls
    exact overclosed_iff_height.mpr (by rw [falls, ← level]; decide)
  · intro j exceeds
    refine Nat.le_of_not_lt fun before => ?_
    have low := count_closeLoop_le (Nat.le_of_lt inside) scanned (Nat.succ_le_of_lt before)
    exact absurd exceeds (Nat.not_lt.mpr low)

theorem not_overclosed_of_scanned {code : List Instruction} {opened : List Nat}
    (scanned : openPositions code 0 [] = .ok opened) (i : Nat) : ¬ Overclosed code i := by
  rw [← openBefore_length] at scanned
  have low : ∀ k ≤ code.length, (code.take k).count .closeLoop ≤ (code.take k).count .openLoop :=
    fun k upTo => count_closeLoop_le (Nat.le_refl _) scanned upTo
  refine Nat.not_lt.mpr ?_
  rcases Nat.le_total (i + 1) code.length with inside | beyond
  · exact low (i + 1) inside
  · have whole := low code.length (Nat.le_refl _)
    rwa [List.take_of_length_le beyond, ← List.take_length (l := code)]

/-! ## Counting -/

theorem balanced_iff_scanned {code : List Instruction} :
    Balanced code ↔ openPositions code 0 [] = .ok [] := by
  constructor
  · intro balanced
    cases scanned : openPositions code 0 [] with
    | error stop =>
      have exceeds := (isLeast_overclosed scanned).1
      exact absurd exceeds (Nat.not_lt.mpr (balanced.prefixes (stop + 1)))
    | ok opened =>
      rw [← openBefore_length] at scanned
      have counted := length_openBefore (Nat.le_refl _) scanned
      have level := balanced.level
      simp only [height, List.take_length] at counted
      rw [List.length_eq_zero_iff.mp (by omega : opened.length = 0)]
  · intro scanned
    constructor
    · intro k
      cases k with
      | zero => simp
      | succ i => exact Nat.not_lt.mp (not_overclosed_of_scanned scanned i)
    · rw [← openBefore_length] at scanned
      have counted := length_openBefore (Nat.le_refl _) scanned
      simp only [height, List.take_length, List.length_nil] at counted
      omega

/-! ## Loops that nothing closes -/

theorem neverClosed_iff {p : Program} {i : Nat} :
    NeverClosed p.toList i ↔ i < p.size ∧ Unclosed p.toList p.size i := by
  constructor
  · rintro ⟨opens, never⟩
    refine ⟨(List.getElem?_eq_some_iff.mp opens).1, ?_⟩
    cases found : p.closeOf? i with
    | none => exact Program.unclosed_of_closeOf?_eq_none opens found
    | some close => exact absurd (Program.closedBy_of_closeOf? opens found) (never close)
  · rintro ⟨_, unclosed⟩
    exact ⟨unclosed.1, fun close closed =>
      Nat.not_le_of_lt closed.inside (closed.unclosed_iff.mp unclosed)⟩

theorem neverClosed_iff_mem {p : Program} {opened : List Nat} {i : Nat}
    (scanned : openPositions p.toList 0 [] = .ok opened) :
    NeverClosed p.toList i ↔ i ∈ opened := by
  rw [← Program.openBefore_size] at scanned
  exact neverClosed_iff.trans (mem_openBefore_iff (Nat.le_refl _) scanned).symm

theorem isGreatest_neverClosed {p : Program} {start : Nat} {outer : List Nat}
    (scanned : openPositions p.toList 0 [] = .ok (start :: outer)) :
    IsGreatest {i | NeverClosed p.toList i} start := by
  have sorted := pairwise_openBefore (Nat.le_refl _) ((Program.openBefore_size p).trans scanned)
  constructor
  · exact (neverClosed_iff_mem scanned).mpr List.mem_cons_self
  · intro i never
    rcases List.mem_cons.mp ((neverClosed_iff_mem scanned).mp never) with rfl | further
    · exact Nat.le_refl _
    · exact Nat.le_of_lt (List.rel_of_pairwise_cons sorted further)

/-! ## The verdict -/

/-- The check accepts the streams that the grammar derives, which are the balanced ones.  It
rejects a program in which some prefix closes more loops than it opens for the first place where
one does, and a program that is only left open for the last loop that nothing closes; position and
message tell which. -/
theorem checkBrackets_verdict (p : Program) :
    (p.checkBrackets = .ok () ↔ Derivable p.toList) ∧
    (Derivable p.toList ↔ Balanced p.toList) ∧
    ∀ e, p.checkBrackets = .error e ↔
      (∃ i, IsLeast {i | Overclosed p.toList i} i ∧ e = .unmatchedClose i ∧ e.position = i ∧
        e.message = s!"Unmatched ']' at position {i}") ∨
      ((∀ i, ¬ Overclosed p.toList i) ∧
        ∃ i, IsGreatest {i | NeverClosed p.toList i} i ∧ e = .unmatchedOpen i ∧ e.position = i ∧
          e.message = s!"Unmatched '[' at position {i}") := by
  have accepted := Program.checkBrackets_eq_ok_iff_derivable (p := p)
  refine ⟨accepted, ?_, fun e => ?_⟩
  · rw [← accepted, balanced_iff_scanned, Program.checkBrackets_eq_ok_iff_openPositions]
  · -- each end of the scan leaves one place to be named, so both directions compare with it
    cases scanned : openPositions p.toList 0 [] with
    | error stop =>
      have first := isLeast_overclosed scanned
      rw [Program.checkBrackets, scanned]
      constructor
      · rintro ⟨⟩
        exact .inl ⟨stop, first, rfl, rfl, rfl⟩
      · rintro (⟨i, least, rfl, _⟩ | ⟨never, _⟩)
        · rw [IsLeast.unique least first]
        · exact absurd first.1 (never stop)
    | ok opened =>
      have never := not_overclosed_of_scanned scanned
      rw [Program.checkBrackets, scanned]
      cases opened with
      | nil =>
        constructor
        · rintro ⟨⟩
        · rintro (⟨i, least, _⟩ | ⟨_, i, greatest, _⟩)
          · exact absurd least.1 (never i)
          · cases (neverClosed_iff_mem scanned).mp greatest.1
      | cons start outer =>
        have last := isGreatest_neverClosed scanned
        constructor
        · rintro ⟨⟩
          exact .inr ⟨never, start, last, rfl, rfl, rfl⟩
        · rintro (⟨i, least, _⟩ | ⟨_, i, greatest, rfl, _⟩)
          · exact absurd least.1 (never i)
          · rw [IsGreatest.unique greatest last]

/-- A bracket that closes nothing is named in front of a loop that nothing closes. -/
example : (Program.ofText "[[+]]]+[").checkBrackets = .error (.unmatchedClose 5) := rfl

end Brainfuck
