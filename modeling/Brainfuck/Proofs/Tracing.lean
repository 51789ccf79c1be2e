import Brainfuck.Proofs.Forgetting

/-! # Tracing does not interfere

Two machines that are worked with in the same way, with tracing switched on and off in each at other
times, give back the same and are left the same but for their traces.

* `Machine.untraced` — a machine with no trace and tracing off.  No step looks at either
  (`passive_untraced`);
* `Operation.returns`, `observed` — what an operation gives back, and what there is to see of a
  history besides traces;
* `observed_of_switching` — two histories show the same if only the switching of tracing differs.

Taking the traces away goes through every operation that does not switch tracing
(`perform_untraced`), and one that does is taken away with them (`untraced_of_switches`).  So a
history shows what it shows without any switching on a machine that never traces
(`observed_eq_untraced`), and that is the same for both.
-/

namespace Brainfuck

namespace Machine

variable {m next last : Machine}

/-- The machine with no trace, and tracing off. -/
def untraced (m : Machine) : Machine :=
  { m with tracing := false, trace := #[] }

theorem passive_untraced : Passive untraced where
  program_eq _ := rfl
  position_eq _ := rfl
  steps_eq _ := rfl
  writes_eq _ := rfl
  effectOf_eq m := by
    funext i
    cases i <;> rfl
  reset_eq _ := rfl
  record_eq m i := by
    cases on : m.tracing <;> simp [record, untraced, on]
  carryOut_eq m e := by
    cases e with
    | input =>
      simp only [carryOut, readByte, untraced]
      split <;> rfl
    | _ => rfl

@[simp] theorem untraced_untraced (m : Machine) : m.untraced.untraced = m.untraced := rfl

/-- A machine that is not tracing goes on without a record. -/
theorem silent_of_step (off : m.tracing = false) (stepped : m.step = .ran next) :
    next.tracing = false ∧ next.trace = m.trace := by
  obtain ⟨i, e, _, _, rfl⟩ := step_eq_ran_iff.mp stepped
  simp [record, off]

theorem silent_of_execute {fuel : Nat} {report : Report} (off : m.tracing = false)
    (ended : m.execute fuel = some (last, report)) :
    last.tracing = false ∧ last.trace = m.trace := by
  cases checked : m.program.checkBrackets with
  | error error =>
    rw [execute_of_rejected checked] at ended
    cases ended
    exact ⟨off, rfl⟩
  | ok _ =>
    obtain ⟨n, _, before, outcome, reached, stops, _⟩ := (execute_eq_some_iff checked).mp ended
    obtain ⟨stays, same⟩ : before.tracing = false ∧ before.trace = m.trace := by
      refine after_induction
        (P := fun later => later.tracing = false ∧ later.trace = m.trace) reached ?_ ⟨off, rfl⟩
      rintro later next stepped ⟨stays, same⟩
      exact (silent_of_step stays stepped).imp_right (·.trans same)
    obtain rfl | ⟨i, rfl⟩ := of_stop? stops
    · exact ⟨stays, same⟩
    · simp [record, stays, same]

end Machine

theorem Step.machine_map (f : Machine → Machine) (step : Step) (m : Machine) :
    (step.map f).machine (f m) = f (step.machine m) := by
  cases step <;> rfl

/-- What an operation gives back to whoever carries it out. -/
inductive Returned where
  | nothing
  /-- How many instructions were loaded. -/
  | count (instructions : Nat)
  /-- Whether there was an instruction left for a step. -/
  | stepped (ran : Bool)
  | raised (fault : Fault)
  | report (report : Report)
  deriving DecidableEq, Repr

namespace Operation

variable {op : Operation} {m next : Machine}

/-- What an operation gives back; none when an execution does not end within its bound. -/
def returns : Operation → Machine → Option Returned
  | load p, _ => some (.count p.size)
  | step, m =>
    match m.step with
    | .halted => some (.stepped false)
    | .ran _ => some (.stepped true)
    | .failed fault _ => some (.raised fault)
  | execute fuel, m => (m.execute fuel).map fun (_, report) => .report report
  | _, _ => some .nothing

/-- The operations that do nothing but switch tracing on or off. -/
def switches : Operation → Bool
  | setTracing _ => true
  | _ => false

theorem returns_untraced (op : Operation) (m : Machine) : op.returns m.untraced = op.returns m := by
  cases op with
  | step =>
    simp only [returns, Machine.passive_untraced.step]
    cases m.step <;> rfl
  | execute fuel =>
    simp only [returns, Machine.passive_untraced.execute, Option.map_map]
    rfl
  | _ => rfl

theorem perform_untraced (other : op.switches = false) (m : Machine) :
    op.perform m.untraced = (op.perform m).map Machine.untraced := by
  cases op with
  | step =>
    simp only [perform, Machine.passive_untraced.step, Step.machine_map, Option.map_some]
  | execute fuel =>
    simp only [perform, Machine.passive_untraced.execute, Option.map_map]
    rfl
  | setTracing on => cases other
  | _ => rfl

theorem untraced_of_switches (switching : op.switches = true) (m : Machine) :
    ∃ next, op.perform m = some next ∧ next.untraced = m.untraced := by
  cases op with
  | setTracing on => exact ⟨_, rfl, rfl⟩
  | _ => cases switching

/-- Nothing but switching tracing on makes a silent machine leave records. -/
theorem silent_of_perform (never : op ≠ setTracing true) (off : m.tracing = false)
    (performed : op.perform m = some next) : next.tracing = false ∧ next.trace = m.trace := by
  cases op with
  | step =>
    cases performed
    refine Machine.machine_step
      (P := fun later => later.tracing = false ∧ later.trace = m.trace) ⟨off, rfl⟩
      (fun _ => Machine.silent_of_step off) fun i => ?_
    simp [Machine.record, off]
  | execute fuel =>
    obtain ⟨⟨last, report⟩, ended, rfl⟩ := Option.map_eq_some_iff.mp performed
    exact Machine.silent_of_execute off ended
  | setTracing on =>
    cases performed
    cases on with
    | false => exact ⟨rfl, rfl⟩
    | true => contradiction
  | _ =>
    cases performed
    exact ⟨off, rfl⟩

end Operation

/-- What there is to see of a history to somebody who sees no traces and does not notice tracing
being switched: of every other operation what it gives back and the machine that it leaves.  An
execution that does not end is the last to be seen. -/
def observed : List Operation → Machine → List (Option Returned × Option Machine)
  | [], _ => []
  | op :: rest, m =>
    (if op.switches then [] else [(op.returns m, (op.perform m).map Machine.untraced)]) ++
      (op.perform m).elim [] (observed rest)

theorem observed_cons_of_switches {op : Operation} {m next : Machine}
    (switching : op.switches = true) (performed : op.perform m = some next)
    (rest : List Operation) : observed (op :: rest) m = observed rest next := by
  simp [observed, switching, performed]

theorem observed_cons_of_not_switches {op : Operation} (other : op.switches = false) (m : Machine)
    (rest : List Operation) :
    observed (op :: rest) m =
      (op.returns m, (op.perform m).map Machine.untraced) ::
        (op.perform m).elim [] (observed rest) := by
  simp [observed, other]

/-- A history shows what it shows without any switching, on a machine that never traces. -/
theorem observed_eq_untraced (history : List Operation) (m : Machine) :
    observed history m = observed (history.filter (!·.switches)) m.untraced := by
  induction history generalizing m with
  | nil => rfl
  | cons op rest ih =>
    cases switching : op.switches with
    | true =>
      obtain ⟨next, performed, same⟩ := Operation.untraced_of_switches switching m
      rw [observed_cons_of_switches switching performed, ih, same,
        List.filter_cons_of_neg (by simp [switching])]
    | false =>
      rw [List.filter_cons_of_pos (by simp [switching]), observed_cons_of_not_switches switching,
        observed_cons_of_not_switches switching, op.returns_untraced,
        Operation.perform_untraced switching]
      cases op.perform m with
      | none => rfl
      | some next =>
        -- the rest starts from a machine whose trace is taken away already
        simp only [Option.map_some, Option.elim_some, Machine.untraced_untraced, ih next]

/-- Two machines that differ in nothing but tracing are worked with in the same way, except that
tracing is switched on and off in each at any times.  Then every operation gives back the same, a
report or a fault or that an execution does not end, and leaves machines that are the same but for
tracing.  A machine that is never told to trace leaves no record. -/
theorem observed_of_switching {m m' : Machine} {history history' : List Operation}
    (same : m.untraced = m'.untraced)
    (together : history.filter (!·.switches) = history'.filter (!·.switches)) :
    observed history m = observed history' m' ∧
    (m.tracing = false → Operation.setTracing true ∉ history →
      ∀ last, performAll history m = some last → last.trace = m.trace) := by
  constructor
  · calc observed history m
      _ = observed (history.filter (!·.switches)) m.untraced := observed_eq_untraced history m
      _ = observed (history'.filter (!·.switches)) m'.untraced := by rw [together, same]
      _ = observed history' m' := (observed_eq_untraced history' m').symm
  · intro off never last reached
    refine (performAll_induction
      (P := fun later => later.tracing = false ∧ later.trace = m.trace) ?_ reached
      ⟨off, rfl⟩).2
    rintro op member now next performed ⟨stays, kept⟩
    have other : op ≠ .setTracing true := fun on => never (on ▸ member)
    exact (Operation.silent_of_perform other stays performed).imp_right (·.trans kept)

/-- One machine never traces, the other traces its first step and the run that the cap ends.  Both
report that run in the same way, and the first is left without a record. -/
theorem observed_of_switching_memoryLimit :
    let p := Program.ofText "+.>>"
    let blank := Tape.blank 1 2 (by decide) (by decide)
    let silent := Machine.onTape blank false (.bytes [])
    let history : List Operation := [.load p, .step, .execute 9]
    ∃ last, performAll history silent = some last ∧ last.trace = #[] ∧ last.output = #[1] ∧
      (observed history silent).map Prod.fst = [some (.count 4), some (.stepped true),
        some (.report ⟨3, 1, some (.fault (.memoryLimit 2) 3)⟩)] ∧
      observed history silent =
        observed [.load p, .step, .setTracing false, .setTracing true, .execute 9]
          (Machine.onTape blank true (.bytes [])) := by
  intro p blank silent history
  obtain ⟨same, unrecorded⟩ := @observed_of_switching silent
    (Machine.onTape blank true (.bytes [])) history
    [.load p, .step, .setTracing false, .setTracing true, .execute 9] rfl rfl
  have ran : (performAll history silent).map Machine.output = some #[1] := by decide +kernel
  obtain ⟨last, reached, output⟩ := Option.map_eq_some_iff.mp ran
  have never : Operation.setTracing true ∉ history := by simp [history]
  exact ⟨last, reached, unrecorded rfl never last reached, output, by decide +kernel, same⟩

end Brainfuck
