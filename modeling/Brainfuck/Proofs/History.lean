import Brainfuck.Proofs.Stepping

/-! # Histories

What can be done to a machine from outside, one operation after another.

* `Operation`, `Operation.perform` — the operations and what each makes of a machine;
* `performAll` — a whole history of them;
* `Machine.machine_step` — what a single step can leave;
* `performAll_induction` — what every operation of a kind keeps, every history of them keeps.

An operation that runs into a fault is over with it: the machine that it leaves is the one that
the next operation finds.
-/

namespace Brainfuck

/-- What can be done to a machine from outside. -/
inductive Operation where
  | load (p : Program)
  /-- Puts in another program and leaves everything else as it is. -/
  | assign (p : Program)
  | step
  | execute (fuel : Nat)
  | reset
  /-- Writes to the cell under the pointer. -/
  | write (value : Int)
  | setTracing (on : Bool)
  | setInput (input : Input)
  deriving DecidableEq, Repr

/-- The machine that a step leaves, whatever its outcome. -/
def Step.machine : Step → Machine → Machine
  | .halted, m => m
  | .ran next, _ => next
  | .failed _ next, _ => next

/-- What a step leaves is the machine itself, what it runs to, or the machine with a record. -/
theorem Machine.machine_step {P : Machine → Prop} {m : Machine} (halted : P m)
    (ran : ∀ next, m.step = .ran next → P next) (failed : ∀ i, P (m.record i)) :
    P (m.step.machine m) := by
  cases stepped : m.step with
  | halted => exact halted
  | ran next => exact ran next stepped
  | failed fault next =>
    obtain ⟨i, _, _, rfl⟩ := step_eq_failed_iff.mp stepped
    exact failed i

namespace Operation

/-- What an operation makes of a machine; none when an execution does not end within its bound. -/
def perform : Operation → Machine → Option Machine
  | load p, m => some (m.load p)
  | assign p, m => some { m with program := p }
  | step, m => some (m.step.machine m)
  | execute fuel, m => (m.execute fuel).map Prod.fst
  | reset, m => some m.reset
  | write value, m => some { m with tape := m.tape.write value }
  | setTracing on, m => some { m with tracing := on }
  | setInput input, m => some { m with input := input }

/-- The operations of somebody who steps through a loaded program: steps, and what does not touch
the program or the place in it. -/
def walks : Operation → Bool
  | step | write _ | setTracing _ | setInput _ => true
  | _ => false

end Operation

def performAll : List Operation → Machine → Option Machine
  | [], m => some m
  | op :: rest, m => (op.perform m).bind (performAll rest)

/-- What every operation of a history keeps, the history keeps. -/
theorem performAll_induction {P : Machine → Prop} {history : List Operation} {m last : Machine}
    (keeps : ∀ op ∈ history, ∀ m next, op.perform m = some next → P m → P next)
    (reached : performAll history m = some last) (start : P m) : P last := by
  induction history generalizing m with
  | nil =>
    cases reached
    exact start
  | cons op rest ih =>
    obtain ⟨next, performed, onward⟩ := Option.bind_eq_some_iff.mp reached
    exact ih (fun op member => keeps op (List.mem_cons_of_mem _ member)) onward
      (keeps op List.mem_cons_self m next performed start)

end Brainfuck
