import Brainfuck.Machine
import Brainfuck.Tape.View

/-! # Steps and runs

What a step can do, said once, and a run as a number of steps.

* `step_eq_ran_iff`, `step_eq_failed_iff`, `step_eq_halted_iff` — the three outcomes of a step;
* `effectOf_eq_ok`, `effectOf_eq_error` — the effects an instruction can have and the faults it can
  run into;
* `Machine.after` — the machine after a number of steps, if it gets that far;
* `run_eq_some_iff`, `execute_eq_some_iff` — a run, and the execution of an accepted program, ends
  where some number of steps leads to an end or to a fault.
-/

namespace Brainfuck

/-- Where an effect leads to from a position. -/
def Effect.target : Effect → Nat → Nat
  | skip close, _ => close + 1
  | again start, _ => start + 1
  | _, position => position + 1

def Effect.loops : Effect → Nat → List Nat → List Nat
  | enter, position, opened => position :: opened
  | leave, _, opened => opened.tail
  | _, _, opened => opened

/-- The instruction that has an effect. -/
def Effect.instruction : Effect → Instruction
  | moveRight => .moveRight
  | moveLeft => .moveLeft
  | increment => .increment
  | decrement => .decrement
  | output => .output
  | input => .input
  | enter => .openLoop
  | skip _ => .openLoop
  | again _ => .closeLoop
  | leave => .closeLoop

namespace Machine

variable {m next : Machine} {i : Instruction} {e : Effect} {fault : Fault}

/-- The machine after `n` steps; none when the program ends or fails before that. -/
def after : Nat → Machine → Option Machine
  | 0, m => some m
  | n + 1, m =>
    match m.step with
    | .ran next => after n next
    | _ => none

/-- How a machine that takes no further step leaves things: at the end of its program, or with a
fault. -/
def stop? (m : Machine) : Option (Machine × Option Fault) :=
  match m.step with
  | .halted => some (m, none)
  | .ran _ => none
  | .failed fault next => some (next, some fault)

/-- The report on a run that left a machine with an outcome. -/
def reportOf (m : Machine) (outcome : Option Fault) : Report where
  steps := m.steps
  outputBytes := m.writes
  failure := outcome.map fun fault => .fault fault m.position

/-! ## A record changes nothing but the trace -/

@[simp] theorem program_record (m : Machine) (i : Instruction) :
    (m.record i).program = m.program := by
  unfold record
  split <;> rfl

@[simp] theorem tape_record (m : Machine) (i : Instruction) : (m.record i).tape = m.tape := by
  unfold record
  split <;> rfl

@[simp] theorem position_record (m : Machine) (i : Instruction) :
    (m.record i).position = m.position := by
  unfold record
  split <;> rfl

@[simp] theorem openLoops_record (m : Machine) (i : Instruction) :
    (m.record i).openLoops = m.openLoops := by
  unfold record
  split <;> rfl

@[simp] theorem steps_record (m : Machine) (i : Instruction) : (m.record i).steps = m.steps := by
  unfold record
  split <;> rfl

@[simp] theorem writes_record (m : Machine) (i : Instruction) : (m.record i).writes = m.writes := by
  unfold record
  split <;> rfl

@[simp] theorem output_record (m : Machine) (i : Instruction) : (m.record i).output = m.output := by
  unfold record
  split <;> rfl

@[simp] theorem tracing_record (m : Machine) (i : Instruction) :
    (m.record i).tracing = m.tracing := by
  unfold record
  split <;> rfl

@[simp] theorem effectOf_record (m : Machine) (i : Instruction) :
    (m.record i).effectOf = m.effectOf := by
  funext j
  unfold record
  split <;> rfl

/-! ## What an effect does -/

@[simp] theorem program_readByte (m : Machine) : m.readByte.program = m.program := by
  unfold readByte
  split <;> rfl

@[simp] theorem openLoops_readByte (m : Machine) : m.readByte.openLoops = m.openLoops := by
  unfold readByte
  split <;> rfl

@[simp] theorem steps_readByte (m : Machine) : m.readByte.steps = m.steps := by
  unfold readByte
  split <;> rfl

@[simp] theorem tracing_readByte (m : Machine) : m.readByte.tracing = m.tracing := by
  unfold readByte
  split <;> rfl

@[simp] theorem trace_readByte (m : Machine) : m.readByte.trace = m.trace := by
  unfold readByte
  split <;> rfl

@[simp] theorem output_readByte (m : Machine) : m.readByte.output = m.output := by
  unfold readByte
  split <;> rfl

@[simp] theorem program_carryOut (m : Machine) (e : Effect) :
    (m.carryOut e).program = m.program := by
  cases e <;> simp [carryOut, goto, writeByte]

@[simp] theorem position_carryOut (m : Machine) (e : Effect) :
    (m.carryOut e).position = e.target m.position := by
  cases e <;> rfl

@[simp] theorem openLoops_carryOut (m : Machine) (e : Effect) :
    (m.carryOut e).openLoops = e.loops m.position m.openLoops := by
  cases e <;> simp [carryOut, goto, writeByte, Effect.loops]

@[simp] theorem steps_carryOut (m : Machine) (e : Effect) :
    (m.carryOut e).steps = m.steps + 1 := by
  cases e <;> simp [carryOut, goto, writeByte]

@[simp] theorem tracing_carryOut (m : Machine) (e : Effect) :
    (m.carryOut e).tracing = m.tracing := by
  cases e <;> simp [carryOut, goto, writeByte]

@[simp] theorem trace_carryOut (m : Machine) (e : Effect) : (m.carryOut e).trace = m.trace := by
  cases e <;> simp [carryOut, goto, writeByte]

/-- No effect changes what a reset makes of the tape. -/
@[simp] theorem tape_reset_carryOut (m : Machine) (e : Effect) :
    (m.carryOut e).tape.reset = m.tape.reset := by
  cases e with
  | input =>
    simp only [carryOut, goto, readByte]
    split <;> rfl
  | _ => simp [carryOut, goto, writeByte, Tape.increment, Tape.decrement]

/-- The effects an instruction can have.  Only brackets jump or touch the list of open loops. -/
theorem effectOf_eq_ok (h : m.effectOf i = .ok e) :
    (i ≠ .openLoop ∧ i ≠ .closeLoop ∧ e.target m.position = m.position + 1 ∧
      e.loops m.position m.openLoops = m.openLoops) ∨
    (i = .openLoop ∧ m.tape.read = 0 ∧
      ∃ close, m.program.closeOf? m.position = some close ∧ e = .skip close) ∨
    (i = .openLoop ∧ m.tape.read ≠ 0 ∧ e = .enter) ∨
    (i = .closeLoop ∧ m.tape.read = 0 ∧ m.openLoops ≠ [] ∧ e = .leave) ∨
    (i = .closeLoop ∧ m.tape.read ≠ 0 ∧
      ∃ start outer, m.openLoops = start :: outer ∧ e = .again start) := by
  -- one case for every instruction that looks at something before it acts
  cases i with
  | moveRight =>
    simp only [effectOf] at h
    split at h
    · cases h
    · cases h
      exact .inl ⟨by simp, by simp, rfl, rfl⟩
  | openLoop =>
    simp only [effectOf] at h
    split at h
    · split at h
      · cases h
        exact .inr (.inl ⟨rfl, ‹_›, _, ‹_›, rfl⟩)
      · cases h
    · cases h
      exact .inr (.inr (.inl ⟨rfl, ‹_›, rfl⟩))
  | closeLoop =>
    simp only [effectOf] at h
    split at h
    · cases h
    · rename_i start outer opened
      split at h
      · cases h
        exact .inr (.inr (.inr (.inl ⟨rfl, ‹_›, by simp [opened], rfl⟩)))
      · cases h
        exact .inr (.inr (.inr (.inr ⟨rfl, ‹_›, start, outer, opened, rfl⟩)))
  | _ =>
    cases h
    exact .inl ⟨by simp, by simp, rfl, rfl⟩

theorem instruction_of_effectOf (does : m.effectOf i = .ok e) : e.instruction = i := by
  cases i with
  | moveRight =>
    simp only [effectOf] at does
    split at does <;> cases does
    rfl
  | openLoop =>
    simp only [effectOf] at does
    split at does
    · split at does <;> cases does
      rfl
    · cases does
      rfl
  | closeLoop =>
    simp only [effectOf] at does
    split at does
    · cases does
    · split at does <;> cases does <;> rfl
  | _ =>
    cases does
    rfl

/-- The faults an instruction can run into. -/
theorem effectOf_eq_error (h : m.effectOf i = .error fault) :
    (i = .moveRight ∧ m.tape.atLimit = true ∧ fault = .memoryLimit m.tape.maxCells) ∨
    (i = .openLoop ∧ m.program.closeOf? m.position = none ∧
      fault = .unmatchedOpen m.position) ∨
    (i = .closeLoop ∧ m.openLoops = [] ∧ fault = .unmatchedClose m.position) := by
  cases i with
  | moveRight =>
    simp only [effectOf] at h
    split at h
    · cases h
      exact .inl ⟨rfl, ‹_›, rfl⟩
    · cases h
  | openLoop =>
    simp only [effectOf] at h
    split at h
    · split at h
      · cases h
      · cases h
        exact .inr (.inl ⟨rfl, ‹_›, rfl⟩)
    · cases h
  | closeLoop =>
    simp only [effectOf] at h
    split at h
    · cases h
      exact .inr (.inr ⟨rfl, ‹_›, rfl⟩)
    · split at h <;> cases h
  | _ => cases h

/-! ## The three outcomes of a step -/

theorem current?_eq_none_iff : m.current? = none ↔ m.program.size ≤ m.position := by
  simp [current?]

theorem step_eq_halted_iff : m.step = .halted ↔ m.current? = none := by
  unfold step
  split
  · simp [*]
  · split <;> simp [*]

theorem step_eq_ran_iff :
    m.step = .ran next ↔
      ∃ i e, m.current? = some i ∧ m.effectOf i = .ok e ∧ next = (m.record i).carryOut e := by
  cases here : m.current? with
  | none => simp [step, here]
  | some i => cases does : m.effectOf i <;> simp [step, attempt, here, does, eq_comm]

theorem step_eq_failed_iff :
    m.step = .failed fault next ↔
      ∃ i, m.current? = some i ∧ m.effectOf i = .error fault ∧ next = m.record i := by
  cases here : m.current? with
  | none => simp [step, here]
  | some i => cases does : m.effectOf i <;> simp [step, attempt, here, does, eq_comm]

/-! ## A number of steps -/

@[simp] theorem after_zero (m : Machine) : m.after 0 = some m := rfl

theorem after_succ (h : m.step = .ran next) (n : Nat) : m.after (n + 1) = next.after n := by
  simp [after, h]

theorem after_one (stepped : m.step = .ran next) : m.after 1 = some next := by
  rw [after_succ stepped, after_zero]

theorem after_succ_inv {n : Nat} {last : Machine} (h : m.after (n + 1) = some last) :
    ∃ next, m.step = .ran next ∧ next.after n = some last := by
  unfold after at h
  split at h
  · exact ⟨_, ‹_›, h⟩
  · cases h

theorem after_add {n : Nat} (h : m.after n = some next) (k : Nat) :
    m.after (n + k) = next.after k := by
  induction n generalizing m with
  | zero =>
    cases h
    rw [Nat.zero_add]
  | succ n ih =>
    obtain ⟨first, stepped, rest⟩ := after_succ_inv h
    rw [Nat.succ_add, after_succ stepped, ih rest]

theorem after_of_le {n k : Nat} (h : m.after n = some next) (le : k ≤ n) :
    ∃ earlier, m.after k = some earlier := by
  induction n generalizing m k with
  | zero => exact ⟨m, by rw [Nat.le_zero.mp le]; rfl⟩
  | succ n ih =>
    obtain ⟨first, stepped, rest⟩ := after_succ_inv h
    cases k with
    | zero => exact ⟨m, rfl⟩
    | succ k =>
      rw [after_succ stepped]
      exact ih rest (by omega)

theorem after_induction {P : Machine → Prop} {n : Nat} (h : m.after n = some next)
    (keeps : ∀ m next, m.step = .ran next → P m → P next) (start : P m) : P next := by
  induction n generalizing m with
  | zero =>
    cases h
    exact start
  | succ n ih =>
    obtain ⟨first, stepped, rest⟩ := after_succ_inv h
    exact ih rest (keeps _ _ stepped start)

/-- What neither a record nor an effect touches is the same after any number of steps. -/
theorem eq_after {α : Type} {f : Machine → α} (ofRecord : ∀ (m : Machine) i, f (m.record i) = f m)
    (ofEffect : ∀ (m : Machine) e, f (m.carryOut e) = f m) {n : Nat}
    (h : m.after n = some next) : f next = f m := by
  refine after_induction (P := fun later => f later = f m) h ?_ rfl
  intro m next stepped same
  obtain ⟨i, e, _, _, rfl⟩ := step_eq_ran_iff.mp stepped
  rw [ofEffect, ofRecord, same]

theorem program_after {n : Nat} (h : m.after n = some next) : next.program = m.program :=
  eq_after program_record program_carryOut h

theorem program_of_step (h : m.step = .ran next) : next.program = m.program :=
  program_after (after_one h)

theorem tape_reset_after {n : Nat} (h : m.after n = some next) :
    next.tape.reset = m.tape.reset :=
  eq_after (f := fun m => m.tape.reset) (fun m i => congrArg Tape.reset (m.tape_record i))
    tape_reset_carryOut h

theorem maxCells_after {n : Nat} (h : m.after n = some next) :
    next.tape.maxCells = m.tape.maxCells :=
  (congrArg Tape.maxCells (tape_reset_after h) :)

theorem steps_after {n : Nat} (h : m.after n = some next) : next.steps = m.steps + n := by
  induction n generalizing m with
  | zero =>
    cases h
    rfl
  | succ n ih =>
    obtain ⟨first, stepped, rest⟩ := after_succ_inv h
    obtain ⟨i, e, _, _, rfl⟩ := step_eq_ran_iff.mp stepped
    rw [ih rest]
    simp only [steps_carryOut, steps_record]
    omega

/-! ## What is written -/

/-- An effect puts bytes behind those that were there, and counts them. -/
theorem exists_written_carryOut (m : Machine) (e : Effect) :
    ∃ bytes, (m.carryOut e).output = m.output ++ bytes ∧
      (m.carryOut e).writes = m.writes + bytes.size := by
  cases e with
  | output => exact ⟨#[m.tape.read], by simp [carryOut, goto, writeByte], rfl⟩
  | input =>
    refine ⟨#[], ?_⟩
    simp only [carryOut, goto, readByte, Array.append_empty]
    split <;> exact ⟨rfl, rfl⟩
  | _ => exact ⟨#[], (Array.append_empty).symm, rfl⟩

theorem exists_written_after {n : Nat} (h : m.after n = some next) :
    ∃ bytes, next.output = m.output ++ bytes ∧ next.writes = m.writes + bytes.size := by
  refine after_induction (P := fun later => ∃ bytes, later.output = m.output ++ bytes ∧
    later.writes = m.writes + bytes.size) h ?_ ⟨#[], (Array.append_empty).symm, rfl⟩
  rintro later next stepped ⟨bytes, written, counted⟩
  obtain ⟨i, e, _, _, rfl⟩ := step_eq_ran_iff.mp stepped
  obtain ⟨more, written', counted'⟩ := exists_written_carryOut (later.record i) e
  refine ⟨bytes ++ more, ?_, ?_⟩
  · rw [written', output_record, written, Array.append_assoc]
  · rw [counted', writes_record, counted, Array.size_append, Nat.add_assoc]

/-! ## Runs -/

theorem run_succ (fuel : Nat) (m : Machine) :
    run (fuel + 1) m =
      match m.step with
      | .halted => some (m, none)
      | .ran next => run fuel next
      | .failed fault next => some (next, some fault) := by
  cases here : m.current? with
  | none => simp [run, step, here]
  | some i => cases tried : m.attempt i <;> simp [run, step, here, tried]

theorem of_stop? {outcome : Option Fault} (h : m.stop? = some (next, outcome)) :
    next = m ∨ ∃ i, next = m.record i := by
  unfold stop? at h
  split at h
  · cases h
    exact .inl rfl
  · cases h
  · rename_i failed
    cases h
    obtain ⟨i, _, _, recorded⟩ := step_eq_failed_iff.mp failed
    exact .inr ⟨i, recorded⟩

/-- What a record does not touch is the same where a machine has stopped. -/
theorem eq_of_stop? {α : Type} {f : Machine → α} (keeps : ∀ i, f (m.record i) = f m)
    {outcome : Option Fault} (h : m.stop? = some (next, outcome)) : f next = f m := by
  obtain rfl | ⟨i, rfl⟩ := of_stop? h
  · rfl
  · exact keeps i

theorem steps_of_stop? {outcome : Option Fault} (h : m.stop? = some (next, outcome)) :
    next.steps = m.steps :=
  eq_of_stop? (f := steps) m.steps_record h

theorem output_of_stop? {outcome : Option Fault} (h : m.stop? = some (next, outcome)) :
    next.output = m.output :=
  eq_of_stop? (f := output) m.output_record h

theorem writes_of_stop? {outcome : Option Fault} (h : m.stop? = some (next, outcome)) :
    next.writes = m.writes :=
  eq_of_stop? (f := writes) m.writes_record h

/-- A run ends where some number of steps leads to a machine that takes no further one. -/
theorem run_eq_some_iff {fuel : Nat} {result : Machine × Option Fault} :
    run fuel m = some result ↔
      ∃ n < fuel, ∃ last, m.after n = some last ∧ last.stop? = some result := by
  induction fuel generalizing m with
  | zero => simp [run]
  | succ fuel ih =>
    rw [run_succ]
    cases stepped : m.step with
    | ran next =>
      simp only [ih]
      constructor
      · rintro ⟨n, enough, last, reached, stops⟩
        exact ⟨n + 1, by omega, last, by rwa [after_succ stepped], stops⟩
      · rintro ⟨n, enough, last, reached, stops⟩
        cases n with
        | zero =>
          cases reached
          simp [stop?, stepped] at stops
        | succ n =>
          rw [after_succ stepped] at reached
          exact ⟨n, by omega, last, reached, stops⟩
    | _ =>
      -- no step is possible, so the run ends at once
      have only : ∀ n last, m.after n = some last → n = 0 := by
        intro n last reached
        cases n with
        | zero => rfl
        | succ n => simp [after, stepped] at reached
      constructor
      · intro ended
        exact ⟨0, by omega, m, rfl, by simpa [stop?, stepped] using ended⟩
      · rintro ⟨n, _, last, reached, stops⟩
        obtain rfl := only n last reached
        cases reached
        simpa [stop?, stepped] using stops

/-- The machine takes `n` steps and no more. -/
def StopsAfter (m : Machine) (n : Nat) : Prop :=
  ∃ last result, m.after n = some last ∧ last.stop? = some result

theorem StopsAfter.of_after {n total : Nat} (h : m.StopsAfter total)
    (reached : m.after n = some next) :
    ∃ k, total = n + k ∧ next.StopsAfter k := by
  induction n generalizing m total with
  | zero =>
    cases reached
    exact ⟨total, (Nat.zero_add total).symm, h⟩
  | succ n ih =>
    obtain ⟨first, stepped, onward⟩ := after_succ_inv reached
    obtain ⟨last, result, arrived, stops⟩ := h
    cases total with
    | zero =>
      -- a machine that stops here takes no first step
      cases arrived
      simp [stop?, stepped] at stops
    | succ total =>
      rw [after_succ stepped] at arrived
      obtain ⟨k, counted, behind⟩ := ih ⟨last, result, arrived, stops⟩ onward
      exact ⟨k, by omega, behind⟩

theorem StopsAfter.unique {n k : Nat} (h : m.StopsAfter n) (h' : m.StopsAfter k) : n = k := by
  obtain ⟨_, _, reached, _⟩ := id h
  obtain ⟨_, _, reached', _⟩ := id h'
  obtain ⟨_, later, _⟩ := h'.of_after reached
  obtain ⟨_, later', _⟩ := h.of_after reached'
  omega

/-! ## Executions -/

@[simp] theorem program_reset (m : Machine) : m.reset.program = m.program := rfl

theorem execute_of_rejected {error : BracketError}
    (rejected : m.program.checkBrackets = .error error) (fuel : Nat) :
    m.execute fuel = some (m, ⟨m.steps, m.writes, some (.unbalanced error)⟩) := by
  rw [execute, rejected]

theorem execute_of_accepted (accepted : m.program.checkBrackets = .ok ()) (fuel : Nat) :
    m.execute fuel =
      (run fuel m.reset).map fun (last, outcome) => (last, last.reportOf outcome) := by
  rw [execute, accepted]
  rcases run fuel m.reset with _ | ⟨last, _ | fault⟩ <;> rfl

theorem execute_eq_some_iff (accepted : m.program.checkBrackets = .ok ()) {fuel : Nat}
    {last : Machine} {report : Report} :
    m.execute fuel = some (last, report) ↔
      ∃ n < fuel, ∃ before outcome, m.reset.after n = some before ∧
        before.stop? = some (last, outcome) ∧ report = last.reportOf outcome := by
  rw [execute_of_accepted accepted, Option.map_eq_some_iff]
  constructor
  · rintro ⟨⟨_, outcome⟩, ran, same⟩
    obtain ⟨rfl, rfl⟩ := Prod.mk.inj same
    obtain ⟨n, enough, before, reached, stops⟩ := run_eq_some_iff.mp ran
    exact ⟨n, enough, before, outcome, reached, stops, rfl⟩
  · rintro ⟨n, enough, before, outcome, reached, stops, rfl⟩
    exact ⟨(last, outcome), run_eq_some_iff.mpr ⟨n, enough, before, reached, stops⟩, rfl⟩

/-- An execution on a machine that is reset already is refused at once, or takes the steps that it
reports. -/
theorem execute_of_fresh (fresh : m.reset = m) {fuel : Nat} {last : Machine} {report : Report}
    (ended : m.execute fuel = some (last, report)) :
    (∃ error, m.program.checkBrackets = .error error ∧ last = m ∧
      report = ⟨0, 0, some (.unbalanced error)⟩) ∨
    (m.program.checkBrackets = .ok () ∧ report.steps < fuel ∧ ∃ before outcome,
      m.after report.steps = some before ∧ before.stop? = some (last, outcome) ∧
      report = last.reportOf outcome) := by
  have steps : m.steps = 0 := (congrArg Machine.steps fresh).symm
  have writes : m.writes = 0 := (congrArg Machine.writes fresh).symm
  cases checked : m.program.checkBrackets with
  | error error =>
    rw [execute_of_rejected checked, steps, writes] at ended
    cases ended
    exact .inl ⟨error, rfl, rfl, rfl⟩
  | ok _ =>
    obtain ⟨n, enough, before, outcome, reached, stops, rfl⟩ :=
      (execute_eq_some_iff checked).mp ended
    rw [fresh] at reached
    have counted : (last.reportOf outcome).steps = n := by
      rw [reportOf, steps_of_stop? stops, steps_after reached, steps, Nat.zero_add]
    exact .inr ⟨rfl, by rwa [counted], before, outcome, by rwa [counted], stops, rfl⟩

/-- More steps than an execution needs change nothing about it. -/
theorem execute_of_le {fuel more : Nat} {result : Machine × Report}
    (ended : m.execute fuel = some result) (le : fuel ≤ more) : m.execute more = some result := by
  cases checked : m.program.checkBrackets with
  | error error =>
    rw [execute_of_rejected checked] at ended ⊢
    exact ended
  | ok _ =>
    obtain ⟨last, report⟩ := result
    obtain ⟨n, enough, ending⟩ := (execute_eq_some_iff checked).mp ended
    exact (execute_eq_some_iff checked).mpr ⟨n, Nat.lt_of_lt_of_le enough le, ending⟩

/-- One number of steps is enough for an execution that ends, and any is for none. -/
theorem exists_execute_ne_none {starts : Prop}
    (halts : starts → ∃ fuel result, m.execute fuel = some result) :
    ∃ fuel, starts → m.execute fuel ≠ none := by
  by_cases begun : starts
  · obtain ⟨fuel, result, ended⟩ := halts begun
    exact ⟨fuel, fun _ => by simp [ended]⟩
  · exact ⟨0, fun begins => absurd begins begun⟩

theorem accepted_of_fault {fuel : Nat} {last : Machine} {report : Report} {position : Nat}
    (ended : m.execute fuel = some (last, report))
    (failed : report.failure = some (.fault fault position)) :
    m.program.checkBrackets = .ok () := by
  cases checked : m.program.checkBrackets with
  | ok _ => rfl
  | error error =>
    rw [execute_of_rejected checked] at ended
    cases ended
    cases failed

/-- What a reset, a record and an effect leave alone is the same at the end of an execution. -/
theorem eq_of_execute {α : Type} {f : Machine → α} (ofReset : ∀ m : Machine, f m.reset = f m)
    (ofRecord : ∀ (m : Machine) i, f (m.record i) = f m)
    (ofEffect : ∀ (m : Machine) e, f (m.carryOut e) = f m) {fuel : Nat} {last : Machine}
    {report : Report} (ended : m.execute fuel = some (last, report)) : f last = f m := by
  cases checked : m.program.checkBrackets with
  | error error =>
    rw [execute_of_rejected checked] at ended
    cases ended
    rfl
  | ok _ =>
    obtain ⟨n, _, before, outcome, reached, stops, _⟩ := (execute_eq_some_iff checked).mp ended
    rw [eq_of_stop? (ofRecord before) stops, eq_after ofRecord ofEffect reached, ofReset]

theorem tape_reset_of_execute {fuel : Nat} {last : Machine} {report : Report}
    (ended : m.execute fuel = some (last, report)) : last.tape.reset = m.tape.reset :=
  eq_of_execute (f := fun m => m.tape.reset) (fun _ => rfl)
    (fun m i => congrArg Tape.reset (m.tape_record i)) tape_reset_carryOut ended

theorem program_of_execute {fuel : Nat} {last : Machine} {report : Report}
    (ended : m.execute fuel = some (last, report)) : last.program = m.program :=
  eq_of_execute program_reset program_record program_carryOut ended

theorem tracing_of_execute {fuel : Nat} {last : Machine} {report : Report}
    (ended : m.execute fuel = some (last, report)) : last.tracing = m.tracing :=
  eq_of_execute (fun _ => rfl) tracing_record tracing_carryOut ended

theorem maxCells_of_execute {fuel : Nat} {last : Machine} {report : Report}
    (ended : m.execute fuel = some (last, report)) : last.tape.maxCells = m.tape.maxCells :=
  (congrArg Tape.maxCells (tape_reset_of_execute ended) :)

end Machine

end Brainfuck
