import Brainfuck.Proofs.History
import Brainfuck.Proofs.Nesting

/-! # The open loops of a machine

However a loaded program is stepped through, the loops that the machine holds are the ones that the
scan of the brackets holds in front of the same position.

`Nested` is that invariant.  It ties a machine's place and its list of loops to the program alone,
so nothing done to the tape, the input or the tracing touches it.  The steps that need an argument
are the two jumps: a skipped loop leaves the list as it was in front of the loop
(`ClosedBy.openBefore_behind`), and a loop that is done again has been on the list ever since it was
opened (`openBefore_split`).
-/

namespace Brainfuck

namespace Machine

variable {m next : Machine}

/-- The machine stands inside its program and holds the loops that are open there. -/
structure Nested (m : Machine) : Prop where
  inside : m.position ≤ m.program.size
  scanned : openBefore m.program.toList m.position = .ok m.openLoops

theorem nested_load (m : Machine) (p : Program) : (m.load p).Nested :=
  ⟨Nat.zero_le _, rfl⟩

theorem getElem?_of_current? {i : Instruction} (here : m.current? = some i) :
    m.program.toList[m.position]? = some i := by
  rw [Array.getElem?_toList]
  exact here

/-! ## A step keeps the invariant -/

theorem Nested.carryOut (h : m.Nested) {i : Instruction} {e : Effect}
    (here : m.current? = some i) (does : m.effectOf i = .ok e) : (m.carryOut e).Nested := by
  have code := getElem?_of_current? here
  have before : m.position < m.program.size := (List.getElem?_eq_some_iff.mp code).1
  have further := openBefore_succ code h.scanned
  -- it is enough to say where the effect leads to and what the scan holds there
  suffices arrives : e.target m.position ≤ m.program.size ∧
      openBefore m.program.toList (e.target m.position) =
        .ok (e.loops m.position m.openLoops) by
    exact ⟨by simpa using arrives.1, by simpa using arrives.2⟩
  obtain ⟨notOpen, notClose, target, loops⟩ | ⟨rfl, _, close, found, rfl⟩ | ⟨rfl, _, rfl⟩ |
    ⟨rfl, _, someOpen, rfl⟩ | ⟨rfl, _, start, outer, opened, rfl⟩ := effectOf_eq_ok does
  · rw [target, loops, further]
    refine ⟨before, ?_⟩
    cases i <;> first | rfl | contradiction
  · -- past a loop the scan holds what it held in front of it
    have closed := (Program.closeOf?_eq_some_iff code).mp found
    exact ⟨closed.inside, closed.openBefore_behind h.scanned⟩
  · exact ⟨before, further⟩
  · cases opened : m.openLoops with
    | nil => contradiction
    | cons start outer =>
      rw [opened] at further
      exact ⟨before, further⟩
  · -- the loop that starts again has been on the list since it was opened
    have held := h.scanned
    rw [opened] at held
    obtain ⟨earlier, opens, outside⟩ := openBefore_cons h.inside held
    refine ⟨Nat.lt_of_lt_of_le earlier h.inside, ?_⟩
    rw [opened]
    exact openBefore_succ opens outside

theorem Nested.record (h : m.Nested) (i : Instruction) : (m.record i).Nested :=
  ⟨by simpa using h.inside, by simpa using h.scanned⟩

theorem Nested.step (h : m.Nested) (stepped : m.step = .ran next) : next.Nested := by
  obtain ⟨i, e, here, does, rfl⟩ := step_eq_ran_iff.mp stepped
  have recorded := h.record i
  exact recorded.carryOut (by simpa [current?] using here) (by simpa using does)

theorem Nested.after {n : Nat} (h : m.Nested) (reached : m.after n = some next) : next.Nested :=
  after_induction reached (fun _ _ stepped nested => nested.step stepped) h

theorem Nested.perform (h : m.Nested) {op : Operation} (walks : op.walks = true)
    (performed : op.perform m = some next) : next.Nested := by
  cases op with
  | step =>
    cases performed
    exact machine_step h (fun _ stepped => h.step stepped) h.record
  | write _ | setTracing _ | setInput _ =>
    cases performed
    exact ⟨h.inside, h.scanned⟩
  | load _ | assign _ | execute _ | reset => cases walks

theorem program_of_walk {op : Operation} (walks : op.walks = true)
    (performed : op.perform m = some next) : next.program = m.program := by
  cases op with
  | step =>
    cases performed
    exact machine_step (P := fun later => later.program = m.program) rfl
      (fun _ stepped => program_of_step stepped) m.program_record
  | write _ | setTracing _ | setInput _ =>
    cases performed
    rfl
  | load _ | assign _ | execute _ | reset => cases walks

/-! ## Bracket faults and the check of the brackets -/

theorem Nested.checkBrackets_of_unmatchedClose (h : m.Nested) {q : Nat}
    (failed : m.step = .failed (.unmatchedClose q) next) :
    m.program.checkBrackets = .error (.unmatchedClose q) := by
  obtain ⟨i, here, fails, _⟩ := step_eq_failed_iff.mp failed
  obtain ⟨_, _, other⟩ | ⟨_, _, other⟩ | ⟨rfl, noneOpen, same⟩ := effectOf_eq_error fails
  · cases other
  · cases other
  · cases same
    have scanned := h.scanned
    rw [noneOpen] at scanned
    exact Program.checkBrackets_of_closeLoop (getElem?_of_current? here) scanned

theorem Nested.checkBrackets_of_unmatchedOpen (h : m.Nested) {q : Nat}
    (failed : m.step = .failed (.unmatchedOpen q) next) :
    ∃ inner ≥ q, m.program.toList[inner]? = some .openLoop ∧
      m.program.checkBrackets = .error (.unmatchedOpen inner) := by
  obtain ⟨i, here, fails, _⟩ := step_eq_failed_iff.mp failed
  obtain ⟨_, _, other⟩ | ⟨rfl, lost, same⟩ | ⟨_, _, other⟩ := effectOf_eq_error fails
  · cases other
  · cases same
    have never := Program.unclosed_of_closeOf?_eq_none (getElem?_of_current? here) lost
    exact Program.checkBrackets_of_unclosed h.scanned never
  · cases other

/-- In an accepted program the memory limit is the only fault. -/
theorem Nested.fault_of_accepted (h : m.Nested) (accepted : m.program.checkBrackets = .ok ())
    {fault : Fault} (failed : m.step = .failed fault next) :
    fault = .memoryLimit m.tape.maxCells := by
  cases fault with
  | memoryLimit _ =>
    obtain ⟨i, _, fails, _⟩ := step_eq_failed_iff.mp failed
    obtain ⟨_, _, same⟩ | ⟨_, _, other⟩ | ⟨_, _, other⟩ := effectOf_eq_error fails
    · exact same
    · cases other
    · cases other
  | unmatchedOpen q =>
    obtain ⟨inner, _, _, rejected⟩ := h.checkBrackets_of_unmatchedOpen failed
    rw [accepted] at rejected
    cases rejected
  | unmatchedClose q =>
    have rejected := h.checkBrackets_of_unmatchedClose failed
    rw [accepted] at rejected
    cases rejected

theorem Nested.position_of_halted (h : m.Nested) (halted : m.step = .halted) :
    m.position = m.program.size :=
  Nat.le_antisymm h.inside (current?_eq_none_iff.mp (step_eq_halted_iff.mp halted))

theorem Nested.openLoops_of_halted (h : m.Nested) (accepted : m.program.checkBrackets = .ok ())
    (halted : m.step = .halted) : m.openLoops = [] := by
  have scanned := h.scanned
  rw [h.position_of_halted halted, Program.checkBrackets_eq_ok_iff.mp accepted] at scanned
  exact (Except.ok.inj scanned).symm

/-! ## Walks through a program -/

theorem nested_of_walk {p : Program} {start : Machine} {walk : List Operation}
    (walks : ∀ op ∈ walk, op.walks = true) (reached : performAll walk (start.load p) = some m) :
    m.program = p ∧ m.Nested := by
  refine performAll_induction (P := fun m => m.program = p ∧ m.Nested) ?_ reached
    ⟨rfl, nested_load start p⟩
  intro op member m next performed held
  have walking := walks op member
  exact ⟨(program_of_walk walking performed).trans held.1, held.2.perform walking performed⟩

/-- However a loaded program is stepped through, its brackets balanced or not, with cells written,
tracing switched and inputs changed on the way: no prefix of what lies behind the machine closes
more loops than it opens, and the machine holds, innermost first, the loops of that prefix that are
not closed in it.  A bracket fault comes only where the check of the brackets rejects the program:
for the same closing bracket, with the same message, or for a loop opened at the faulty one or
further inside.  An accepted program has no such fault, and no loop is open at its end. -/
theorem openLoops_of_walk {p : Program} {start : Machine} {walk : List Operation}
    (walks : ∀ op ∈ walk, op.walks = true)
    (reached : performAll walk (start.load p) = some m) :
    m.program = p ∧
    m.position ≤ p.size ∧
    (∀ k ≤ m.position,
      (p.toList.take k).count .closeLoop ≤ (p.toList.take k).count .openLoop) ∧
    m.openLoops.reverse = unclosed p.toList m.position ∧
    openPositions (p.toList.take m.position) 0 [] = .ok m.openLoops ∧
    (∀ q next, m.step = .failed (.unmatchedClose q) next →
      ∃ e, p.checkBrackets = .error e ∧ e = .unmatchedClose q ∧ e.position = q ∧
        e.message = (Fault.unmatchedClose q).message) ∧
    (∀ q next, m.step = .failed (.unmatchedOpen q) next →
      ∃ inner ≥ q, p[inner]? = some .openLoop ∧
        p.checkBrackets = .error (.unmatchedOpen inner)) ∧
    (p.checkBrackets = .ok () →
      (∀ q next, m.step ≠ .failed (.unmatchedClose q) next ∧
        m.step ≠ .failed (.unmatchedOpen q) next) ∧
      (m.halted = true → m.openLoops = [])) := by
  -- all of it is what the invariant says about a single state
  obtain ⟨rfl, nested⟩ := nested_of_walk walks reached
  refine ⟨rfl, nested.inside, fun k upTo => count_closeLoop_le nested.inside nested.scanned upTo,
    reverse_openBefore nested.inside nested.scanned, nested.scanned, ?_, ?_, ?_⟩
  · intro q next failed
    exact ⟨_, nested.checkBrackets_of_unmatchedClose failed, rfl, rfl, rfl⟩
  · intro q next failed
    obtain ⟨inner, deeper, opens, rejected⟩ := nested.checkBrackets_of_unmatchedOpen failed
    exact ⟨inner, deeper, by rwa [← Array.getElem?_toList], rejected⟩
  · intro accepted
    refine ⟨fun q next => ⟨fun failed => ?_, fun failed => ?_⟩, fun halted => ?_⟩
    · cases nested.fault_of_accepted accepted failed
    · cases nested.fault_of_accepted accepted failed
    · exact nested.openLoops_of_halted accepted
        (step_eq_halted_iff.mpr (current?_eq_none_iff.mpr (of_decide_eq_true halted)))

/-- A walk into a loop that is left open, with a loop inside it that is done twice. -/
theorem openLoops_of_walk_unbalanced :
    ∃ m, performAll [.setInput (.bytes [2]), .step, .step, .step, .step, .step, .write 0, .step]
        ((onTape (Tape.blank 1 2 (by decide) (by decide)) false (.bytes [])).load
          (Program.ofText ",[[-]>")) = some m ∧
      m.openLoops = [2, 1] ∧
      m.openLoops.reverse = unclosed (Program.ofText ",[[-]>").toList m.position := by
  obtain ⟨m, reached, held⟩ : ∃ m, performAll
      [.setInput (.bytes [2]), .step, .step, .step, .step, .step, .write 0, .step]
      ((onTape (Tape.blank 1 2 (by decide) (by decide)) false (.bytes [])).load
        (Program.ofText ",[[-]>")) = some m ∧ m.openLoops = [2, 1] := by
    exact ⟨_, rfl, rfl⟩
  exact ⟨m, reached, held, (openLoops_of_walk (by decide) reached).2.2.2.1⟩

end Machine

end Brainfuck
