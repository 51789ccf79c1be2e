import Brainfuck.Proofs.History

/-! # An execution forgets what was before

An execution of an accepted program goes as it would go on a new machine, whatever the machine went
through, and so does everything after a load.

* `Machine.Passive` — a change of machines that no step looks at.  It goes through whole runs and
  executions (`Passive.execute`);
* `Machine.prepend` — what was written and traced before, put in front of what a machine has written
  and traced.  A step reads neither, so the change is passive (`passive_prepend`);
* `load_eq_prepend` — loading leaves a new machine with the earlier writings in front, for nothing
  that is done to a machine changes what a reset makes of its tape (`tape_reset_performAll`).
-/

namespace Brainfuck

/-- The same outcome, with another machine. -/
def Step.map (f : Machine → Machine) : Step → Step
  | halted => halted
  | ran next => ran (f next)
  | failed fault next => failed fault (f next)

namespace Machine

variable {m next start : Machine} {i : Instruction} {e : Effect}

/-- A change of machines that no step looks at: it decides nothing, and it can be made before a step
or behind it. -/
structure Passive (f : Machine → Machine) : Prop where
  program_eq : ∀ m, (f m).program = m.program
  position_eq : ∀ m, (f m).position = m.position
  steps_eq : ∀ m, (f m).steps = m.steps
  writes_eq : ∀ m, (f m).writes = m.writes
  effectOf_eq : ∀ m, (f m).effectOf = m.effectOf
  reset_eq : ∀ m, (f m).reset = f m.reset
  record_eq : ∀ m i, (f m).record i = f (m.record i)
  carryOut_eq : ∀ m e, (f m).carryOut e = f (m.carryOut e)

namespace Passive

variable {f : Machine → Machine}

theorem step (h : Passive f) (m : Machine) : (f m).step = m.step.map f := by
  have here : (f m).current? = m.current? := by
    rw [current?, h.program_eq, h.position_eq, current?]
  cases stepped : m.step with
  | halted => exact step_eq_halted_iff.mpr (here.trans (step_eq_halted_iff.mp stepped))
  | ran next =>
    obtain ⟨i, e, now, does, rfl⟩ := step_eq_ran_iff.mp stepped
    refine step_eq_ran_iff.mpr ⟨i, e, here.trans now, by rwa [h.effectOf_eq], ?_⟩
    rw [h.record_eq, h.carryOut_eq]
  | failed fault next =>
    obtain ⟨i, now, fails, rfl⟩ := step_eq_failed_iff.mp stepped
    refine step_eq_failed_iff.mpr ⟨i, here.trans now, by rwa [h.effectOf_eq], ?_⟩
    rw [h.record_eq]

theorem run (h : Passive f) (fuel : Nat) (m : Machine) :
    run fuel (f m) = (run fuel m).map fun (last, outcome) => (f last, outcome) := by
  induction fuel generalizing m with
  | zero => rfl
  | succ fuel ih =>
    rw [run_succ, run_succ, h.step]
    cases m.step with
    | halted => rfl
    | ran next => exact ih next
    | failed fault next => rfl

theorem execute (h : Passive f) (fuel : Nat) (m : Machine) :
    (f m).execute fuel = (m.execute fuel).map (Prod.map f id) := by
  have same : (f m).program.checkBrackets = m.program.checkBrackets := by rw [h.program_eq]
  cases checked : m.program.checkBrackets with
  | error error =>
    rw [execute_of_rejected checked, execute_of_rejected (same.trans checked), h.steps_eq,
      h.writes_eq]
    rfl
  | ok _ =>
    rw [execute_of_accepted checked, execute_of_accepted (same.trans checked), h.reset_eq, h.run,
      Option.map_map, Option.map_map]
    -- the report only looks at what the change leaves alone
    have report : ∀ last outcome, (f last).reportOf outcome = last.reportOf outcome := by
      intro last outcome
      rw [reportOf, h.steps_eq, h.writes_eq, h.position_eq, reportOf]
    refine congrArg (Option.map · _) (funext fun ended => ?_)
    obtain ⟨last, outcome⟩ := ended
    simp only [Function.comp_apply, Prod.map_apply, id_eq, report]

end Passive

/-! ## Earlier writings -/

/-- The machine with earlier output and earlier records in front of its own. -/
def prepend (output : Array UInt8) (trace : Array TraceRecord) (m : Machine) : Machine :=
  { m with output := output ++ m.output, trace := trace ++ m.trace }

section Prepend

variable (output : Array UInt8) (trace : Array TraceRecord)

theorem passive_prepend : Passive (prepend output trace) where
  program_eq _ := rfl
  position_eq _ := rfl
  steps_eq _ := rfl
  writes_eq _ := rfl
  effectOf_eq m := by
    funext i
    cases i <;> rfl
  reset_eq _ := rfl
  record_eq m i := by
    unfold record
    by_cases on : m.tracing
    · simp [prepend, on, Tape.read]
    · simp [prepend, on]
  carryOut_eq m e := by
    cases e with
    | input =>
      simp only [carryOut, readByte, prepend]
      split <;> rfl
    | output => simp [carryOut, writeByte, goto, prepend]
    | _ => rfl

end Prepend

/-! ## What is left of a history -/

/-- Nothing that is done to a machine changes what a reset makes of its tape. -/
theorem tape_reset_perform {op : Operation} (performed : op.perform m = some next) :
    next.tape.reset = m.tape.reset := by
  cases op with
  | step =>
    cases performed
    refine machine_step (P := fun later => later.tape.reset = m.tape.reset) rfl
      (fun _ stepped => tape_reset_after (after_one stepped)) fun i => ?_
    rw [tape_record]
  | execute fuel =>
    obtain ⟨⟨last, report⟩, ended, rfl⟩ := Option.map_eq_some_iff.mp performed
    exact tape_reset_of_execute ended
  | _ =>
    cases performed
    rfl

theorem tape_reset_performAll {history : List Operation}
    (reached : performAll history start = some m) : m.tape.reset = start.tape.reset :=
  performAll_induction (P := fun later => later.tape.reset = start.tape.reset)
    (fun _ _ _ _ performed same => (tape_reset_perform performed).trans same) reached rfl

theorem exists_tape_of_new? {cells cap : Int} {tracing : Bool} {input : Input}
    (made : new? cells cap tracing input = .ok start) :
    ∃ tape, start = onTape tape tracing input ∧ tape.reset = tape ∧
      ∀ tracing input, new? cells cap tracing input = .ok (onTape tape tracing input) := by
  cases sized : Tape.new? cells cap with
  | error error =>
    rw [new?, sized] at made
    cases made
  | ok tape =>
    rw [new?, sized] at made
    cases made
    exact ⟨tape, rfl, Tape.reset_of_new? sized, fun _ _ => by rw [new?, sized]; rfl⟩

theorem load_eq_prepend {tape : Tape} (blank : tape.reset = tape) (same : m.tape.reset = tape)
    (p : Program) :
    m.load p = ((onTape tape m.tracing m.input).load p).prepend m.output m.trace := by
  simp [load, reset, onTape, prepend, blank, same]

/-- What an accepted program is executed on is the machine that a reset makes. -/
theorem execute_congr {m' : Machine} (accepted : m.program.checkBrackets = .ok ())
    (same : m.reset = m'.reset) (fuel : Nat) : m.execute fuel = m'.execute fuel := by
  have program : m.program = m'.program := (congrArg program same :)
  rw [execute_of_accepted accepted, execute_of_accepted (by rwa [← program]), same]

theorem execute_of_load {m' : Machine} {output : Array UInt8} {trace : Array TraceRecord}
    (loaded : m.load m.program = (m'.load m.program).prepend output trace)
    (accepted : m.program.checkBrackets = .ok ()) (fuel : Nat) :
    m.execute fuel =
      ((m'.load m.program).execute fuel).map (Prod.map (prepend output trace) id) := by
  -- loading the program that a machine has is a reset, and so is to reset it again
  have same : m.reset = ((m'.load m.program).prepend output trace).reset := loaded
  rw [← (passive_prepend output trace).execute]
  exact execute_congr accepted same fuel

theorem performAll_resets (m : Machine) (k : Nat) :
    ∃ last, performAll (List.replicate k .reset) m = some last ∧ last.reset = m.reset ∧
      last.program = m.program := by
  induction k generalizing m with
  | zero => exact ⟨m, rfl, rfl, rfl⟩
  | succ k ih => exact ih m.reset

/-- Whatever a machine went through since it was made, failed executions included, the execution of
an accepted program goes as on a new machine of the same sizes, with the tracing and the input that
the machine has now, that loads the program as it is written: the report is the same, and the
machine that is left is the same, with what was written and traced before in front.  It makes no
difference how often the machine is reset before.  To load a program leaves the machine as it leaves
that new one. -/
theorem execute_forgets {cells cap : Int} {tracing : Bool} {input : Input}
    (made : new? cells cap tracing input = .ok start) {history : List Operation}
    (reached : performAll history start = some m) :
    ∃ fresh, new? cells cap m.tracing m.input = .ok fresh ∧
      (m.program.checkBrackets = .ok () → ∀ fuel,
        (m.execute fuel =
          ((fresh.load (Program.ofText m.program.text)).execute fuel).map
            (Prod.map (prepend m.output m.trace) id)) ∧
        ∀ k, ∃ again, performAll (List.replicate k .reset) m = some again ∧
          again.execute fuel = m.execute fuel) ∧
      ∀ p, m.load p = (fresh.load p).prepend m.output m.trace := by
  obtain ⟨tape, rfl, blank, makes⟩ := exists_tape_of_new? made
  have same : m.tape.reset = tape := (tape_reset_performAll reached).trans blank
  have loaded := load_eq_prepend blank same
  refine ⟨_, makes m.tracing m.input, fun accepted fuel => ⟨?_, fun k => ?_⟩, loaded⟩
  · rw [Program.ofText_text]
    exact execute_of_load (loaded m.program) accepted fuel
  · obtain ⟨again, resets, reset, program⟩ := performAll_resets m k
    refine ⟨again, resets, ?_⟩
    rw [execute_of_accepted accepted, execute_of_accepted (by rw [program, accepted]), reset]

/-- A run that the cap ends inside a loop, and then another program put in without a reset: the next
execution does not show any of that, but for the byte that was put out before. -/
theorem execute_forgets_abortedRun :
    ∃ start m, new? 1 3 true (.bytes [5, 6, 7]) = .ok start ∧
      performAll [.load (Program.ofText ",.[>+]"), .execute 40, .setTracing false, .write 300,
        .step, .assign (Program.ofText "+[>,.<-]")] start = some m ∧
      m.program.checkBrackets = .ok () ∧
      m.openLoops = [2] ∧ m.tape.cells.toList = [5, 1, 44] ∧ m.output.toList = [5] ∧
      ∃ fresh, new? 1 3 m.tracing m.input = .ok fresh ∧
        m.execute 40 =
          ((fresh.load (Program.ofText m.program.text)).execute 40).map
            (Prod.map (prepend m.output m.trace) id) := by
  have made : new? 1 3 true (.bytes [5, 6, 7]) =
      .ok (onTape (Tape.blank 1 3 (by decide) (by decide)) true (.bytes [5, 6, 7])) := rfl
  have ran : (performAll [.load (Program.ofText ",.[>+]"), .execute 40, .setTracing false,
        .write 300, .step, .assign (Program.ofText "+[>,.<-]")]
        (onTape (Tape.blank 1 3 (by decide) (by decide)) true (.bytes [5, 6, 7]))).map
          (fun m => (m.program.balanced, m.openLoops, m.tape.cells.toList, m.output.toList)) =
      some (true, [2], [5, 1, 44], [5]) := by
    decide +kernel
  obtain ⟨m, reached, seen⟩ := Option.map_eq_some_iff.mp ran
  simp only [Prod.mk.injEq] at seen
  obtain ⟨balanced, opened, cells, output⟩ := seen
  have accepted : m.program.checkBrackets = .ok () := by
    cases checked : m.program.checkBrackets with
    | ok _ => rfl
    | error error => simp [Program.balanced, checked] at balanced
  obtain ⟨fresh, made', forgets, _⟩ := execute_forgets made reached
  exact ⟨_, m, made, reached, accepted, opened, cells, output, fresh, made',
    (forgets accepted 40).1⟩

end Machine

end Brainfuck
