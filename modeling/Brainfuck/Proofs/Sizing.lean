import Brainfuck.Machine.Source
import Brainfuck.Proofs.Stepping

/-! # The size of the tape

Two machines that differ in their tapes only, and whose tapes show the same bytes under the same
pointer, do the same until the one with less room is refused a `>`.

* `Tape.Alike`, `Machine.Alike` — what shows of a tape, and machines that show the same;
* `Alike.step`, `Alike.after`, `Alike.stop?` — one step, a number of steps and the last step of two
  machines;
* `runProgram_of_sizes` — a run shows nothing of the sizes but where the cap ends it.
-/

namespace Brainfuck

namespace Tape

variable {t u : Tape}

/-- The tapes show the same bytes under the same pointer. -/
structure Alike (t u : Tape) : Prop where
  pointer : t.pointer = u.pointer
  cell : ∀ i, t.cell i = u.cell i

namespace Alike

theorem symm (h : t.Alike u) : u.Alike t :=
  ⟨h.pointer.symm, fun i => (h.cell i).symm⟩

theorem reset (t u : Tape) : t.reset.Alike u.reset :=
  ⟨rfl, fun i => by rw [cell_reset, cell_reset]⟩

theorem read (h : t.Alike u) : t.read = u.read := by
  rw [read_eq_cell, read_eq_cell, h.pointer, h.cell]

theorem put (h : t.Alike u) (value : UInt8) : (t.put value).Alike (u.put value) := by
  refine ⟨h.pointer, fun i => ?_⟩
  rw [cell_put, cell_put, h.pointer, h.cell]

theorem increment (h : t.Alike u) : t.increment.Alike u.increment := by
  unfold Tape.increment
  rw [h.read]
  exact h.put _

theorem decrement (h : t.Alike u) : t.decrement.Alike u.decrement := by
  unfold Tape.decrement
  rw [h.read]
  exact h.put _

theorem moveLeft (h : t.Alike u) : t.moveLeft.Alike u.moveLeft := by
  refine ⟨?_, h.cell⟩
  rw [pointer_moveLeft, pointer_moveLeft, h.pointer]

theorem moveRight (h : t.Alike u) (inside : t.atLimit = false) (inside' : u.atLimit = false) :
    t.moveRight.Alike u.moveRight := by
  refine ⟨?_, fun i => ?_⟩
  · rw [pointer_moveRight inside, pointer_moveRight inside', h.pointer]
  · rw [cell_moveRight, cell_moveRight, h.cell]

theorem atLimit_of_le (h : t.Alike u) (room : t.maxCells ≤ u.maxCells)
    (inside : t.atLimit = false) : u.atLimit = false := by
  have away : t.pointer + 1 ≠ t.maxCells := by
    rw [ne_eq, ← atLimit_iff, inside]
    exact Bool.false_ne_true
  -- a pointer that is not at the smaller cap is short of it
  have before : t.pointer + 1 ≤ t.maxCells := Nat.le_trans t.pointer_lt t.size_le_max
  rw [← Bool.not_eq_true, atLimit_iff, ← h.pointer]
  omega

theorem atLimit_eq (h : t.Alike u) (same : t.maxCells = u.maxCells) : t.atLimit = u.atLimit := by
  rw [Bool.eq_iff_iff, atLimit_iff, atLimit_iff, h.pointer, same]

end Alike

end Tape

namespace Machine

variable {m next last m' : Machine} {i : Instruction} {e : Effect} {fault : Fault}

/-- The machines differ in their tapes only, and these are alike. -/
def Alike (m m' : Machine) : Prop :=
  ∃ tape, m.tape.Alike tape ∧ m' = { m with tape := tape }

/-! ## One step of two machines -/

theorem atLimit_of_effectOf (does : m.effectOf i = .ok .moveRight) : m.tape.atLimit = false := by
  obtain rfl := instruction_of_effectOf does
  simpa [effectOf, Effect.instruction] using does

namespace Alike

theorem symm (h : m.Alike m') : m'.Alike m := by
  obtain ⟨tape, alike, rfl⟩ := h
  exact ⟨m.tape, alike.symm, rfl⟩

theorem reset (h : m.Alike m') : m.reset.Alike m'.reset := by
  obtain ⟨tape, _, rfl⟩ := h
  exact ⟨tape.reset, .reset m.tape tape, rfl⟩

theorem record (h : m.Alike m') (i : Instruction) : (m.record i).Alike (m'.record i) := by
  obtain ⟨tape, alike, rfl⟩ := h
  refine ⟨tape, by rwa [tape_record], ?_⟩
  unfold Machine.record
  split
  · simp only [alike.pointer, alike.read]
  · rfl

theorem program_eq (h : m.Alike m') : m'.program = m.program := by
  obtain ⟨tape, _, rfl⟩ := h
  rfl

theorem current?_eq (h : m.Alike m') : m'.current? = m.current? := by
  obtain ⟨tape, _, rfl⟩ := h
  rfl

/-- Only a `>` can tell the machines apart. -/
theorem effectOf_eq (h : m.Alike m') (other : i ≠ .moveRight) : m'.effectOf i = m.effectOf i := by
  obtain ⟨tape, alike, rfl⟩ := h
  cases i with
  | moveRight => contradiction
  | _ => simp only [effectOf, alike.read]

theorem effectOf_ok (h : m.Alike m') (room : m.tape.maxCells ≤ m'.tape.maxCells)
    (does : m.effectOf i = .ok e) : m'.effectOf i = .ok e := by
  by_cases right : i = .moveRight
  · subst right
    obtain ⟨tape, alike, rfl⟩ := h
    cases limit : m.tape.atLimit with
    | true => simp [effectOf, limit] at does
    | false =>
      have limit' := alike.atLimit_of_le room limit
      simpa [effectOf, limit, limit'] using does
  · rw [h.effectOf_eq right, does]

theorem effectOf_error (h : m.Alike m')
    (same : m.tape.maxCells = m'.tape.maxCells ∨ ∀ cap, fault ≠ .memoryLimit cap)
    (fails : m.effectOf i = .error fault) : m'.effectOf i = .error fault := by
  by_cases right : i = .moveRight
  · subst right
    obtain ⟨_, full, rfl⟩ | ⟨other, _⟩ | ⟨other, _⟩ := effectOf_eq_error fails
    · -- the fault names the cap, so the caps have to be the same
      obtain ⟨tape, alike, rfl⟩ := h
      have caps : m.tape.maxCells = tape.maxCells := same.resolve_right fun none => none _ rfl
      simp [effectOf, ← alike.atLimit_eq caps, full, caps]
    · cases other
    · cases other
  · rw [h.effectOf_eq right, fails]

theorem carryOut (h : m.Alike m') (does : m.effectOf i = .ok e) (does' : m'.effectOf i = .ok e) :
    (m.carryOut e).Alike (m'.carryOut e) := by
  obtain ⟨tape, alike, rfl⟩ := h
  cases e with
  | moveRight =>
    exact ⟨_, alike.moveRight (atLimit_of_effectOf does) (atLimit_of_effectOf does'), rfl⟩
  | moveLeft => exact ⟨_, alike.moveLeft, rfl⟩
  | increment => exact ⟨_, alike.increment, rfl⟩
  | decrement => exact ⟨_, alike.decrement, rfl⟩
  | output =>
    -- the byte that goes out is one that both tapes show
    refine ⟨tape, alike, ?_⟩
    simp only [Machine.carryOut, writeByte, goto, alike.read]
  | input =>
    simp only [Machine.carryOut, readByte]
    cases m.input.next with
    | mk byte rest =>
      cases byte with
      | none => exact ⟨_, alike.put 0, rfl⟩
      | some b => exact ⟨_, alike.put b, rfl⟩
  | _ => exact ⟨tape, alike, rfl⟩

theorem step (h : m.Alike m') (room : m.tape.maxCells ≤ m'.tape.maxCells)
    (stepped : m.step = .ran next) : ∃ next', m'.step = .ran next' ∧ next.Alike next' := by
  obtain ⟨i, e, here, does, rfl⟩ := step_eq_ran_iff.mp stepped
  have recorded := h.record i
  have does' : m'.effectOf i = .ok e := h.effectOf_ok room does
  refine ⟨_, step_eq_ran_iff.mpr ⟨i, e, h.current?_eq.trans here, does', rfl⟩, ?_⟩
  exact recorded.carryOut (i := i) (by rwa [effectOf_record]) (by rwa [effectOf_record])

theorem after {n : Nat} (h : m.Alike m') (room : m.tape.maxCells ≤ m'.tape.maxCells)
    (reached : m.after n = some last) : ∃ last', m'.after n = some last' ∧ last.Alike last' := by
  induction n generalizing m m' with
  | zero =>
    cases reached
    exact ⟨m', rfl, h⟩
  | succ n ih =>
    obtain ⟨first, stepped, onward⟩ := after_succ_inv reached
    obtain ⟨first', stepped', alike⟩ := h.step room stepped
    -- no step changes a cap
    have cap := maxCells_after (after_one stepped)
    have cap' := maxCells_after (after_one stepped')
    obtain ⟨last', onward', alike⟩ := ih alike (by rwa [cap, cap']) onward
    exact ⟨last', by rw [after_succ stepped', onward'], alike⟩

/-- Where one machine stops the other one stops too, unless it has the room to go on. -/
theorem stop? {outcome : Option Fault} (h : m.Alike m')
    (same : m.tape.maxCells = m'.tape.maxCells ∨ ∀ cap, outcome ≠ some (.memoryLimit cap))
    (stops : m.stop? = some (last, outcome)) :
    ∃ last', m'.stop? = some (last', outcome) ∧ last.Alike last' := by
  unfold Machine.stop? at stops
  split at stops
  · rename_i halted
    cases stops
    have halted' : m'.step = .halted := by
      rwa [step_eq_halted_iff, h.current?_eq, ← step_eq_halted_iff]
    exact ⟨m', by simp only [Machine.stop?, halted'], h⟩
  · cases stops
  · rename_i fault next failed
    cases stops
    obtain ⟨i, here, fails, rfl⟩ := step_eq_failed_iff.mp failed
    have fails' : m'.effectOf i = .error fault :=
      h.effectOf_error (same.imp_right fun other cap limit => other cap (by rw [limit])) fails
    have failed' := step_eq_failed_iff.mpr ⟨i, h.current?_eq.trans here, fails', rfl⟩
    exact ⟨m'.record i, by simp only [Machine.stop?, failed'], h.record i⟩

theorem reportOf (h : m.Alike m') (outcome : Option Fault) :
    m.reportOf outcome = m'.reportOf outcome := by
  obtain ⟨tape, _, rfl⟩ := h
  rfl

/-! ## Two executions -/

theorem execute {fuel : Nat} {report : Report} (h : m.Alike m')
    (room : m.tape.maxCells ≤ m'.tape.maxCells)
    (same : m.tape.maxCells = m'.tape.maxCells ∨
      ∀ cap position, report.failure ≠ some (.fault (.memoryLimit cap) position))
    (ended : m.execute fuel = some (last, report)) :
    ∃ last', m'.execute fuel = some (last', report) ∧ last.Alike last' := by
  cases checked : m.program.checkBrackets with
  | error error =>
    -- no step is taken, and the counters in the report are those from before
    rw [execute_of_rejected checked] at ended
    cases ended
    refine ⟨m', ?_, h⟩
    rw [execute_of_rejected (by rw [h.program_eq, checked])]
    obtain ⟨tape, _, rfl⟩ := h
    rfl
  | ok _ =>
    obtain ⟨n, enough, before, outcome, reached, stops, rfl⟩ :=
      (execute_eq_some_iff checked).mp ended
    obtain ⟨before', reached', alike⟩ := h.reset.after room reached
    have caps : before.tape.maxCells = before'.tape.maxCells ∨
        ∀ cap, outcome ≠ some (.memoryLimit cap) := by
      rw [maxCells_after reached, maxCells_after reached']
      refine same.imp_right fun other cap limit => other cap last.position ?_
      rw [limit]
      rfl
    obtain ⟨last', stops', alike⟩ := alike.stop? caps stops
    refine ⟨last', (execute_eq_some_iff (by rw [h.program_eq, checked])).mpr
      ⟨n, enough, before', outcome, reached', stops', ?_⟩, alike⟩
    exact alike.reportOf outcome

end Alike

/-! ## Output only grows -/

theorem output_prefix_after {n : Nat} (reached : m.after n = some last) :
    m.output.toList <+: last.output.toList := by
  obtain ⟨bytes, written, _⟩ := exists_written_after reached
  exact ⟨bytes.toList, by rw [written, Array.toList_append]⟩

theorem output_prefix_of_le {n j : Nat} (reached : m.after n = some last) (le : n ≤ j)
    (onward : m.after j = some next) : last.output.toList <+: next.output.toList := by
  obtain ⟨l, rfl⟩ := Nat.exists_eq_add_of_le le
  rw [after_add reached] at onward
  exact output_prefix_after onward

/-- What an execution did is the beginning of what the machine with more room does. -/
theorem Alike.execute_prefix {fuel : Nat} {report : Report} (h : m.Alike m')
    (room : m.tape.maxCells ≤ m'.tape.maxCells) (accepted : m.program.checkBrackets = .ok ())
    (ended : m.execute fuel = some (last, report)) :
    (∀ j ≤ report.steps, ∃ mid mid', m.reset.after j = some mid ∧ m'.reset.after j = some mid' ∧
      mid.Alike mid') ∧
    (∀ j mid', report.steps ≤ j → m'.reset.after j = some mid' →
      last.output.toList <+: mid'.output.toList) ∧
    ∀ fuel' last' report', m'.execute fuel' = some (last', report') →
      last.output.toList <+: last'.output.toList := by
  obtain ⟨n, _, before, outcome, reached, stops, rfl⟩ := (execute_eq_some_iff accepted).mp ended
  obtain ⟨before', reached', alike⟩ := h.reset.after room reached
  have steps : (last.reportOf outcome).steps = n := by
    rw [Machine.reportOf, steps_of_stop? stops, steps_after reached]
    exact Nat.zero_add n
  have output : last.output = before'.output := by
    obtain ⟨tape, _, rfl⟩ := alike
    exact (output_of_stop? stops).trans rfl
  rw [steps, output]
  refine ⟨fun j le => ?_, fun j mid' le onward => output_prefix_of_le reached' le onward, ?_⟩
  · obtain ⟨mid, part⟩ := after_of_le reached le
    obtain ⟨mid', part', alike⟩ := h.reset.after room part
    exact ⟨mid, mid', part, part', alike⟩
  · intro fuel' last' report' ended'
    obtain ⟨n', _, final, outcome', arrived, stops', _⟩ :=
      (execute_eq_some_iff (by rw [h.program_eq, accepted])).mp ended'
    -- the other machine does not stop earlier, for it gets this far
    obtain ⟨l, later, _⟩ := StopsAfter.of_after ⟨final, _, arrived, stops'⟩ reached'
    rw [output_of_stop? stops']
    exact output_prefix_of_le reached' (by omega) arrived

/-! ## Two runs -/

def start? (p : Program) (input : List UInt8) (tracing : Bool) (s : Settings) :
    Except TapeError Machine :=
  (ofSettings? s (.bytes input)).map fun m => load { m with tracing := tracing || m.tracing } p

/-- What the execution of a machine shows to somebody who does not see the machine. -/
def outcome (fuel : Nat) (m : Machine) : Except RunError RunOutcome :=
  match m.execute fuel with
  | none => .error .unfinished
  | some (last, report) => .ok ⟨report, last.output.toList, last.trace.toList⟩

theorem outcome_eq_ok_iff {fuel : Nat} {shown : RunOutcome} :
    m.outcome fuel = .ok shown ↔
      ∃ last, m.execute fuel = some (last, shown.report) ∧
        shown.output = last.output.toList ∧ shown.trace = last.trace.toList := by
  unfold outcome
  cases m.execute fuel with
  | none => simp
  | some result =>
    obtain ⟨last, report⟩ := result
    obtain ⟨report', output, trace⟩ := shown
    simp only [Except.ok.injEq, RunOutcome.mk.injEq, Option.some.injEq, Prod.mk.injEq]
    constructor
    · rintro ⟨rfl, rfl, rfl⟩
      exact ⟨last, ⟨rfl, rfl⟩, rfl, rfl⟩
    · rintro ⟨_, ⟨rfl, rfl⟩, rfl, rfl⟩
      exact ⟨rfl, rfl, rfl⟩

theorem eq_unfinished_of_outcome {fuel : Nat} {error : RunError}
    (h : m.outcome fuel = .error error) : error = .unfinished := by
  unfold outcome at h
  split at h <;> cases h
  rfl

theorem Alike.outcome_eq_ok {fuel : Nat} {shown : RunOutcome} (h : m.Alike m')
    (room : m.tape.maxCells ≤ m'.tape.maxCells)
    (same : m.tape.maxCells = m'.tape.maxCells ∨
      ∀ cap position, shown.report.failure ≠ some (.fault (.memoryLimit cap) position))
    (ended : m.outcome fuel = .ok shown) : m'.outcome fuel = .ok shown := by
  obtain ⟨last, ended, output, trace⟩ := outcome_eq_ok_iff.mp ended
  obtain ⟨last', ended', alike⟩ := h.execute room same ended
  obtain ⟨tape, _, rfl⟩ := alike
  exact outcome_eq_ok_iff.mpr ⟨_, ended', output, trace⟩

theorem Alike.outcome_eq (h : m.Alike m') (same : m.tape.maxCells = m'.tape.maxCells) (fuel : Nat) :
    m.outcome fuel = m'.outcome fuel := by
  cases ended : m.outcome fuel with
  | ok shown => exact (h.outcome_eq_ok (Nat.le_of_eq same) (.inl same) ended).symm
  | error error =>
    cases ended' : m'.outcome fuel with
    | ok shown =>
      have back := h.symm.outcome_eq_ok (Nat.le_of_eq same.symm) (.inl same.symm) ended'
      rw [ended] at back
      cases back
    | error error' => rw [eq_unfinished_of_outcome ended, eq_unfinished_of_outcome ended']

theorem start?_of_sizes {cells cap : Int} (pos : 0 < cells) (le : cells ≤ cap)
    (p : Program) (input : List UInt8) (tracing : Bool) (s : Settings) :
    ∃ tape, start? p input tracing { s with initialCells := cells, maxCells := cap } =
        .ok ((onTape tape (tracing || s.debug) (.bytes input)).load p) ∧
      tape.maxCells = cap.toNat := by
  refine ⟨Tape.blank cells.toNat cap.toNat (by omega) (by omega), ?_, rfl⟩
  simp only [start?, ofSettings?, new?, Tape.new?_of_le pos le]
  rfl

theorem exists_alike_start {cells₁ cap₁ cells₂ cap₂ : Int} (pos₁ : 0 < cells₁)
    (le₁ : cells₁ ≤ cap₁) (pos₂ : 0 < cells₂) (le₂ : cells₂ ≤ cap₂) (p : Program)
    (input : List UInt8) (tracing : Bool) (s : Settings) :
    ∃ m m', start? p input tracing { s with initialCells := cells₁, maxCells := cap₁ } = .ok m ∧
      start? p input tracing { s with initialCells := cells₂, maxCells := cap₂ } = .ok m' ∧
      m.Alike m' ∧ m.tape.maxCells = cap₁.toNat ∧ m'.tape.maxCells = cap₂.toNat ∧
      m.reset = m ∧ m'.reset = m' := by
  obtain ⟨tape, started, cap⟩ := start?_of_sizes pos₁ le₁ p input tracing s
  obtain ⟨tape', started', cap'⟩ := start?_of_sizes pos₂ le₂ p input tracing s
  exact ⟨_, _, started, started', ⟨tape'.reset, .reset tape tape', rfl⟩, cap, cap', rfl, rfl⟩

end Machine

theorem eq_ok_of_toOption {ε α : Type} {outcome : Except ε α} {a : α}
    (found : outcome.toOption = some a) : outcome = .ok a := by
  cases outcome with
  | error => cases found
  | ok => exact congrArg Except.ok (Option.some.inj found)

theorem runProgram_of_start {p : Program} {input : List UInt8} {tracing : Bool} {s : Settings}
    {m : Machine} (started : Machine.start? p input tracing s = .ok m) (fuel : Nat) :
    runProgram fuel p input tracing s = m.outcome fuel := by
  unfold Machine.start? at started
  unfold runProgram
  cases made : Machine.ofSettings? s (.bytes input) with
  | error _ =>
    rw [made] at started
    cases started
  | ok _ =>
    rw [made] at started
    cases started
    rfl

/-- What a run starts from: a machine on a blank tape, and the same one but for the input where that
is another one. -/
theorem exists_tape_of_runProgram {fuel : Nat} {p : Program} {input : List UInt8} {tracing : Bool}
    {s : Settings} {shown : RunOutcome} (ran : runProgram fuel p input tracing s = .ok shown) :
    ∃ tape, ∀ input, Machine.start? p input tracing s =
      .ok ((Machine.onTape tape (tracing || s.debug) (.bytes input)).load p) := by
  cases sized : Tape.new? s.initialCells s.maxCells with
  | error error =>
    simp only [runProgram, Machine.ofSettings?, Machine.new?, sized] at ran
    cases ran
  | ok tape =>
    refine ⟨tape, fun input => ?_⟩
    simp only [Machine.start?, Machine.ofSettings?, Machine.new?, sized]
    rfl

/-- The sizes of the tape do not show but where the cap ends a run.  A run that the cap does not end
is the same with other sizes, as long as the cap is no smaller.  One that the cap ends is, step for
step, the beginning of the run with the other sizes, and its output is the beginning of what that
one puts out.  With the same cap there is no difference at all. -/
theorem runProgram_of_sizes {cells₁ cap₁ cells₂ cap₂ : Int} (pos₁ : 0 < cells₁)
    (le₁ : cells₁ ≤ cap₁) (pos₂ : 0 < cells₂) (le₂ : cells₂ ≤ cap₂) (room : cap₁ ≤ cap₂)
    (p : Program) (input : List UInt8) (tracing : Bool) (s : Settings) :
    let s₁ := { s with initialCells := cells₁, maxCells := cap₁ }
    let s₂ := { s with initialCells := cells₂, maxCells := cap₂ }
    (∀ fuel shown, runProgram fuel p input tracing s₁ = .ok shown →
      (∀ cap position, shown.report.failure ≠ some (.fault (.memoryLimit cap) position)) →
      runProgram fuel p input tracing s₂ = .ok shown) ∧
    (∀ fuel shown cap position, runProgram fuel p input tracing s₁ = .ok shown →
      shown.report.failure = some (.fault (.memoryLimit cap) position) →
      ∃ m m', Machine.start? p input tracing s₁ = .ok m ∧
        Machine.start? p input tracing s₂ = .ok m' ∧
        (∀ n ≤ shown.report.steps, ∃ mid mid', m.after n = some mid ∧ m'.after n = some mid' ∧
          mid.Alike mid') ∧
        (∀ n mid', shown.report.steps ≤ n → m'.after n = some mid' →
          shown.output <+: mid'.output.toList) ∧
        ∀ fuel' shown', runProgram fuel' p input tracing s₂ = .ok shown' →
          shown.output <+: shown'.output) ∧
    (cap₁ = cap₂ → ∀ fuel,
      runProgram fuel p input tracing s₁ = runProgram fuel p input tracing s₂) := by
  intro s₁ s₂
  obtain ⟨m, m', started, started', alike, cap₁_eq, cap₂_eq, reset, reset'⟩ :=
    Machine.exists_alike_start pos₁ le₁ pos₂ le₂ p input tracing s
  have more : m.tape.maxCells ≤ m'.tape.maxCells := by
    rw [cap₁_eq, cap₂_eq]
    exact Int.toNat_le_toNat room
  refine ⟨?_, ?_, ?_⟩
  · intro fuel shown ended notFull
    rw [runProgram_of_start started] at ended
    rw [runProgram_of_start started']
    exact alike.outcome_eq_ok more (.inr notFull) ended
  · intro fuel shown cap position ended failed
    rw [runProgram_of_start started] at ended
    obtain ⟨last, ended, output, _⟩ := Machine.outcome_eq_ok_iff.mp ended
    obtain ⟨together, onward, ending⟩ :=
      alike.execute_prefix more (Machine.accepted_of_fault ended failed) ended
    rw [reset, reset'] at together
    rw [reset'] at onward
    rw [output]
    refine ⟨m, m', started, started', together, onward, ?_⟩
    intro fuel' shown' ended'
    rw [runProgram_of_start started'] at ended'
    obtain ⟨last', ended', output', _⟩ := Machine.outcome_eq_ok_iff.mp ended'
    rw [output']
    exact ending fuel' last' _ ended'
  · intro same fuel
    rw [runProgram_of_start started, runProgram_of_start started']
    exact alike.outcome_eq (by rw [cap₁_eq, cap₂_eq, same]) fuel

/-- Two cells are not enough for a program that moves on twice.  What it puts out before that is the
beginning of what it puts out where there are more. -/
theorem runProgram_of_sizes_twoCells :
    runProgram 20 (Program.ofText "+.>++.>,.") [7] false { initialCells := 1, maxCells := 2 } =
      .ok ⟨⟨6, 2, some (.fault (.memoryLimit 2) 6)⟩, [1, 2], []⟩ ∧
    ∀ fuel shown,
      runProgram fuel (Program.ofText "+.>++.>,.") [7] false { initialCells := 3, maxCells := 5 } =
        .ok shown → [1, 2] <+: shown.output := by
  have full : runProgram 20 (Program.ofText "+.>++.>,.") [7] false
      { initialCells := 1, maxCells := 2 } =
        .ok ⟨⟨6, 2, some (.fault (.memoryLimit 2) 6)⟩, [1, 2], []⟩ := by
    cbv
  refine ⟨full, ?_⟩
  obtain ⟨_, prefixes, _⟩ := @runProgram_of_sizes 1 2 3 5 (by decide) (by decide) (by decide)
    (by decide) (by decide) (Program.ofText "+.>++.>,.") [7] false {}
  obtain ⟨_, _, _, _, _, _, ending⟩ := prefixes 20 _ 2 6 full rfl
  exact ending

end Brainfuck
