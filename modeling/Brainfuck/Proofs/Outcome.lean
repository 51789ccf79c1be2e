import Brainfuck.Proofs.LoopStack
import Brainfuck.Tape.View

/-! # The outcomes of an execution

An execution that ends does so in one of three ways: it is refused, it comes to the end of its
program, or it runs into the memory limit.  Since an accepted program is run from its start, the
machine holds the open loops of its place at every step (`Nested`), and for an accepted program
that leaves no bracket fault and pins down the place of the memory fault.
-/

namespace Brainfuck

namespace Machine

variable {m last : Machine}

theorem nested_reset (m : Machine) : m.reset.Nested :=
  ⟨Nat.zero_le _, rfl⟩

/-- The loops of an accepted program that are not closed in front of a plain instruction are those
around it. -/
theorem Nested.mem_openLoops_iff (h : m.Nested) (accepted : m.program.checkBrackets = .ok ())
    {i : Instruction} (here : m.current? = some i) (plain : i ≠ .closeLoop) (start : Nat) :
    start ∈ m.openLoops ↔
      ∃ close, ClosedBy m.program.toList start close ∧
        start < m.position ∧ m.position < close := by
  rw [mem_openBefore_iff h.inside h.scanned]
  constructor
  · rintro ⟨before, never⟩
    obtain ⟨close, closed⟩ := Program.exists_closedBy accepted never.1
    have upTo : m.position ≤ close := closed.unclosed_iff.mp never
    -- the machine does not stand on the bracket that closes the loop
    refine ⟨close, closed, before, Nat.lt_of_le_of_ne upTo fun same => ?_⟩
    have closes := closed.closes
    rw [← same, getElem?_of_current? here] at closes
    exact plain (Option.some.inj closes)
  · rintro ⟨close, closed, before, upTo⟩
    exact ⟨before, closed.unclosed_iff.mpr (Nat.le_of_lt upTo)⟩

theorem pointer_of_memoryLimit {i : Instruction} {maxCells : Nat}
    (fails : m.effectOf i = .error (.memoryLimit maxCells)) :
    i = .moveRight ∧ m.tape.pointer + 1 = m.tape.size ∧ m.tape.size = m.tape.maxCells := by
  obtain ⟨rfl, full, _⟩ | ⟨_, _, other⟩ | ⟨_, _, other⟩ := effectOf_eq_error fails
  · have limit := m.tape.atLimit_iff.mp full
    have inside : m.tape.pointer < m.tape.size := m.tape.pointer_lt
    have capped : m.tape.size ≤ m.tape.maxCells := m.tape.size_le_max
    exact ⟨rfl, by omega, by omega⟩
  · cases other
  · cases other

/-- Whatever a machine went through before, an execution that ends is refused and leaves the machine
as it was; or it comes to the end of its program with no loop open; or it stops in front of a `>`
with the pointer on the last cell of a tape that has reached its cap, and then the machine holds,
innermost first, the loops around that place.  No bracket fault is ever reported. -/
theorem execute_outcome {fuel : Nat} {report : Report}
    (ended : m.execute fuel = some (last, report)) :
    match report.failure with
    | some (.unbalanced error) => m.program.checkBrackets = .error error ∧ last = m
    | none =>
      m.program.checkBrackets = .ok () ∧ last.program = m.program ∧
      last.position = m.program.size ∧ last.openLoops = []
    | some (.fault fault position) =>
      m.program.checkBrackets = .ok () ∧ last.program = m.program ∧
      fault = .memoryLimit last.tape.maxCells ∧
      position = last.position ∧ (Failure.fault fault position).position = last.position ∧
      m.program[last.position]? = some .moveRight ∧
      last.tape.pointer = last.tape.size - 1 ∧ last.tape.size = last.tape.maxCells ∧
      last.openLoops.Pairwise (· > ·) ∧
      ∀ start, start ∈ last.openLoops ↔
        ∃ close, ClosedBy m.program.toList start close ∧
          start < last.position ∧ last.position < close := by
  cases checked : m.program.checkBrackets with
  | error error =>
    rw [execute_of_rejected checked] at ended
    cases ended
    exact ⟨rfl, rfl⟩
  | ok _ =>
    obtain ⟨n, _, before, outcome, reached, stops, rfl⟩ := (execute_eq_some_iff checked).mp ended
    have nested := (nested_reset m).after reached
    have same : before.program = m.program := (program_after reached).trans (program_reset m)
    have accepted : before.program.checkBrackets = .ok () := by rw [same, checked]
    -- the run got here from the start, so the machine is nested whatever it was before
    unfold stop? at stops
    split at stops
    · rename_i halted
      cases stops
      exact ⟨rfl, same, by rw [nested.position_of_halted halted, same],
        nested.openLoops_of_halted accepted halted⟩
    · cases stops
    · rename_i fault next failed
      cases stops
      have limit := nested.fault_of_accepted accepted failed
      subst limit
      obtain ⟨i, here, fails, rfl⟩ := step_eq_failed_iff.mp failed
      obtain ⟨rfl, final, full⟩ := pointer_of_memoryLimit fails
      have sorted := pairwise_openBefore nested.inside nested.scanned
      have around := nested.mem_openLoops_iff accepted here (by simp)
      have code := getElem?_of_current? here
      simp only [reportOf, Option.map_some, Failure.position, Fault.position?, Option.getD_none,
        program_record, position_record, tape_record, openLoops_record, true_and]
      rw [← same]
      exact ⟨rfl, by rwa [← Array.getElem?_toList], by omega, full, sorted, around⟩

/-- A program put in while another one was being stepped through stops at the cap, three loops
deep. -/
theorem execute_outcome_memoryLimit :
    ∃ m last, performAll [.load (Program.ofText "+["), .step, .step, .write 7,
          .assign (Program.ofText "+[>+[[>+]]]")]
        (onTape (Tape.blank 1 3 (by decide) (by decide)) false (.bytes [])) = some m ∧
      m.execute 20 = some (last, ⟨9, 0, some (.fault (.memoryLimit 3) 6)⟩) ∧
      last.openLoops = [5, 4, 1] ∧
      ∀ start, start ∈ last.openLoops ↔ ∃ close, ClosedBy m.program.toList start close ∧
        start < last.position ∧ last.position < close := by
  have ran : ((performAll [.load (Program.ofText "+["), .step, .step, .write 7,
          .assign (Program.ofText "+[>+[[>+]]]")]
        (onTape (Tape.blank 1 3 (by decide) (by decide)) false (.bytes []))).bind
          (execute 20)).map (fun (last, report) => (report, last.openLoops)) =
      some (⟨9, 0, some (.fault (.memoryLimit 3) 6)⟩, [5, 4, 1]) := by
    decide +kernel
  obtain ⟨⟨last, report⟩, ended, same⟩ := Option.map_eq_some_iff.mp ran
  obtain ⟨m, reached, ended⟩ := Option.bind_eq_some_iff.mp ended
  obtain ⟨rfl, held⟩ := Prod.mk.inj same
  have outcome := execute_outcome ended
  exact ⟨m, last, reached, ended, held, outcome.2.2.2.2.2.2.2.2.2⟩

end Machine

end Brainfuck
