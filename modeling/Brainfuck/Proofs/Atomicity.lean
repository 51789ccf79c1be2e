import Brainfuck.Proofs.LoopStack

/-! # One step from any state

A program can be put into a machine in the middle of a run of another one, so that neither the place
of the machine nor its list of open loops need to fit the program.  A step is safe even then: it
looks up nothing that is not there (`effectOf_inRange`), and where it fails it has done nothing but
leave a record (`record_eq`).  The fault is decided by what a record does not touch, so the next
step runs into the same one, and so does every one after that (`exists_failed_after_steps`).
-/

namespace Brainfuck

namespace Machine

variable {m next : Machine} {i : Instruction} {e : Effect} {fault : Fault}

/-! ## What a step looks up -/

/-- What is looked up to carry out an effect is there: the bracket that closes a skipped loop, or
the loop that a closing bracket ends or starts again. -/
def InRange (m : Machine) : Effect → Prop
  | .skip close => m.position < close ∧ m.program[close]? = some .closeLoop
  | .again start => m.openLoops.head? = some start
  | .leave => m.openLoops ≠ []
  | _ => True

theorem effectOf_inRange (here : m.current? = some i) (does : m.effectOf i = .ok e) :
    m.InRange e := by
  -- only brackets look anything up but the cell under the pointer
  cases i with
  | openLoop =>
    obtain ⟨other, _⟩ | ⟨_, _, close, found, rfl⟩ | ⟨_, _, rfl⟩ | ⟨other, _⟩ | ⟨other, _⟩ :=
      effectOf_eq_ok does
    · contradiction
    · have closed := (Program.closeOf?_eq_some_iff (getElem?_of_current? here)).mp found
      exact ⟨closed.behind, by rw [← Array.getElem?_toList, closed.closes]⟩
    · trivial
    · cases other
    · cases other
  | closeLoop =>
    obtain ⟨_, other, _⟩ | ⟨other, _⟩ | ⟨other, _⟩ | ⟨_, _, opened, rfl⟩ |
      ⟨_, _, start, outer, opened, rfl⟩ := effectOf_eq_ok does
    · contradiction
    · cases other
    · cases other
    · exact opened
    · rw [InRange, opened, List.head?_cons]
  | moveRight =>
    simp only [effectOf] at does
    split at does <;> cases does
    trivial
  | _ =>
    cases does
    trivial

/-! ## What a failed step leaves -/

/-- The only thing that a record adds to is the trace. -/
theorem record_eq (m : Machine) (i : Instruction) :
    m.record i = { m with
      trace := if m.tracing then m.trace.push ⟨m.position, i, m.tape.pointer, m.tape.read⟩
        else m.trace } := by
  unfold record
  split <;> rfl

theorem failed_of_record (here : m.current? = some i) (fails : m.effectOf i = .error fault) :
    (m.record i).step = .failed fault ((m.record i).record i) :=
  step_eq_failed_iff.mpr ⟨i, by simpa [current?] using here, by rwa [effectOf_record], rfl⟩

/-- A machine whose step fails can be made to step any number of times: every time the step fails in
the same way, and only the trace is another one. -/
theorem exists_failed_after_steps (failed : m.step = .failed fault next) (n : Nat) :
    ∃ later again, performAll (List.replicate n .step) m = some later ∧
      later = { m with trace := later.trace } ∧ later.step = .failed fault again := by
  induction n generalizing m next with
  | zero => exact ⟨m, next, rfl, rfl, failed⟩
  | succ n ih =>
    obtain ⟨i, here, fails, rfl⟩ := step_eq_failed_iff.mp failed
    obtain ⟨later, again, reached, same, refails⟩ := ih (failed_of_record here fails)
    refine ⟨later, again, ?_, ?_, refails⟩
    · rw [List.replicate_succ, performAll, Operation.perform, failed]
      exact reached
    · -- what differs from the machine with a record in the trace only differs from `m` in it only
      rw [record_eq] at same
      exact same

/-! ## The outcomes of a step -/

/-- A step of a machine in whatever state it is, its program exchanged in mid-run or not.  It has
nothing to do exactly behind the end of the program, and does nothing there.  Else it carries out
the instruction at hand, looking up only what is there, and counts it; or it runs into the fault of
that instruction.  A fault leaves the machine as it was, with one more record where it is tracing,
and every further step runs into the same fault. -/
theorem step_outcome (m : Machine) :
    (m.step = .halted ↔ m.program.size ≤ m.position) ∧
    m.tape.cells[m.tape.pointer]? = some m.tape.read ∧
    match m.step with
    | .halted => Operation.step.perform m = some m
    | .ran next =>
      next.steps = m.steps + 1 ∧
      ∃ i e, m.program[m.position]? = some i ∧ m.effectOf i = .ok e ∧ m.InRange e ∧
        next = (m.record i).carryOut e
    | .failed fault after =>
      ∃ i, m.program[m.position]? = some i ∧
        ((i = .moveRight ∧ fault = .memoryLimit m.tape.maxCells) ∨
          (i = .openLoop ∧ fault = .unmatchedOpen m.position) ∨
          (i = .closeLoop ∧ fault = .unmatchedClose m.position)) ∧
        after = { m with
          trace := if m.tracing then m.trace.push ⟨m.position, i, m.tape.pointer, m.tape.read⟩
            else m.trace } ∧
        ∀ n, ∃ later again, performAll (List.replicate n .step) after = some later ∧
          later = { m with trace := later.trace } ∧ later.step = .failed fault again := by
  refine ⟨step_eq_halted_iff.trans current?_eq_none_iff,
    Array.getElem?_eq_getElem m.tape.pointer_lt, ?_⟩
  cases stepped : m.step with
  | halted =>
    simp only [Operation.perform, stepped, Step.machine]
  | ran next =>
    obtain ⟨i, e, here, does, rfl⟩ := step_eq_ran_iff.mp stepped
    exact ⟨by rw [steps_carryOut, steps_record], i, e, here, does, effectOf_inRange here does, rfl⟩
  | failed fault after =>
    obtain ⟨i, here, fails, rfl⟩ := step_eq_failed_iff.mp stepped
    refine ⟨i, here, ?_, record_eq m i, fun n => ?_⟩
    · obtain ⟨rfl, _, rfl⟩ | ⟨rfl, _, rfl⟩ | ⟨rfl, _, rfl⟩ := effectOf_eq_error fails
      · exact .inl ⟨rfl, rfl⟩
      · exact .inr (.inl ⟨rfl, rfl⟩)
      · exact .inr (.inr ⟨rfl, rfl⟩)
    · obtain ⟨later, again, reached, same, refails⟩ :=
        exists_failed_after_steps (failed_of_record here fails) n
      rw [record_eq] at same
      exact ⟨later, again, reached, same, refails⟩

end Machine

end Brainfuck
