import Brainfuck.Proofs.History

/-! # What a report counts

A report repeats the counters of the machine, and these start at the last reset.  An execution of an
accepted program begins with a reset, so its report counts just what the execution did.  One of a
program that is refused does nothing, not even reset, so its report counts what was done before it.

* `CarriesOut` — how many instructions an execution carries out;
* `execute_accounts_iff` — the report counts what the execution did exactly where the program is
  accepted or the counters were at zero.
-/

namespace Brainfuck

namespace Machine

variable {m last : Machine}

/-- An execution carries out `n` instructions and leaves `last`.  Where the program is refused these
are none, else those from the start of the program to where it stops. -/
def CarriesOut (m : Machine) (n : Nat) (last : Machine) : Prop :=
  match m.program.checkBrackets with
  | .error _ => n = 0 ∧ last = m
  | .ok _ => ∃ stopped outcome, m.reset.after n = some stopped ∧
      stopped.stop? = some (last, outcome)

theorem CarriesOut.unique {n k : Nat} {last' : Machine} (h : m.CarriesOut n last)
    (h' : m.CarriesOut k last') : n = k := by
  unfold CarriesOut at h h'
  split at h
  · rename_i error refused
    rw [refused] at h'
    exact h.1.trans h'.1.symm
  · rename_i accepted
    rw [accepted] at h'
    obtain ⟨stopped, outcome, reached, stops⟩ := h
    obtain ⟨stopped', outcome', reached', stops'⟩ := h'
    exact StopsAfter.unique ⟨stopped, _, reached, stops⟩ ⟨stopped', _, reached', stops'⟩

/-- An execution that ends carries out some number of instructions and puts some bytes behind those
that the machine has written before.  Its report gives these two numbers exactly where the program
is accepted or the counters of the machine were at zero: the report on a program that is refused
repeats the counters as they are. -/
theorem execute_accounts_iff {fuel : Nat} {report : Report}
    (ended : m.execute fuel = some (last, report)) :
    ∃ n bytes, m.CarriesOut n last ∧ (∀ k last', m.CarriesOut k last' → k = n) ∧
      last.output = m.output ++ bytes ∧
      ((report.steps = n ∧ report.outputBytes = bytes.size) ↔
        (m.program.checkBrackets = .ok () ∨ (m.steps = 0 ∧ m.writes = 0))) ∧
      (∀ error, m.program.checkBrackets = .error error →
        n = 0 ∧ bytes = #[] ∧ report.steps = m.steps ∧ report.outputBytes = m.writes) := by
  cases checked : m.program.checkBrackets with
  | error error =>
    rw [execute_of_rejected checked] at ended
    cases ended
    have nothing : m.CarriesOut 0 m := by simp [CarriesOut, checked]
    refine ⟨0, #[], nothing, fun k last' other => other.unique nothing,
      (Array.append_empty).symm, ?_, fun _ _ => ⟨rfl, rfl, rfl, rfl⟩⟩
    simp
  | ok _ =>
    obtain ⟨n, _, stopped, outcome, reached, stops, rfl⟩ := (execute_eq_some_iff checked).mp ended
    have carried : m.CarriesOut n last := by
      rw [CarriesOut, checked]
      exact ⟨stopped, outcome, reached, stops⟩
    -- the run starts from a reset machine, so both counters start at zero
    have steps : last.steps = n := by
      rw [steps_of_stop? stops, steps_after reached]
      exact Nat.zero_add n
    obtain ⟨bytes, written, counted⟩ := exists_written_after reached
    have writes : last.writes = bytes.size := by
      rw [writes_of_stop? stops, counted]
      exact Nat.zero_add bytes.size
    refine ⟨n, bytes, carried, fun k last' other => other.unique carried,
      (output_of_stop? stops).trans written, ?_, ?_⟩
    · exact iff_of_true ⟨steps, writes⟩ (.inl rfl)
    · intro error rejected
      cases rejected

/-- Two instructions were carried out and one byte was written before; the next program takes three
steps and writes one byte, and that is what its report says. -/
theorem execute_accounts_iff_secondRun :
    ∃ m last, performAll [.load (Program.ofText "+."), .execute 9, .assign (Program.ofText "++.")]
        (onTape (Tape.blank 1 1 (by decide) (by decide)) false (.bytes [])) = some m ∧
      m.execute 9 = some (last, ⟨3, 1, none⟩) ∧
      ∃ n bytes, m.CarriesOut n last ∧ last.output = m.output ++ bytes ∧
        ((3 = n ∧ 1 = bytes.size) ↔
          (m.program.checkBrackets = .ok () ∨ (m.steps = 0 ∧ m.writes = 0))) := by
  obtain ⟨m, last, reached, ended⟩ : ∃ m last, performAll
      [.load (Program.ofText "+."), .execute 9, .assign (Program.ofText "++.")]
      (onTape (Tape.blank 1 1 (by decide) (by decide)) false (.bytes [])) = some m ∧
      m.execute 9 = some (last, ⟨3, 1, none⟩) := by
    exact ⟨_, _, rfl, rfl⟩
  obtain ⟨n, bytes, carried, _, written, counts, _⟩ := execute_accounts_iff ended
  exact ⟨m, last, reached, ended, n, bytes, carried, written, counts⟩

/-- A program is stepped through up to a bracket that closes nothing, and then executed: nothing is
carried out, and the report counts the two instructions and the byte of before. -/
theorem refused_report_counts_earlier_steps :
    ∃ m, performAll [.load (Program.ofText "+.]"), .step, .step]
        (onTape (Tape.blank 1 1 (by decide) (by decide)) false (.bytes [])) = some m ∧
      m.execute 9 = some (m, ⟨2, 1, some (.unbalanced (.unmatchedClose 2))⟩) ∧
      m.CarriesOut 0 m :=
  ⟨_, rfl, rfl, rfl, rfl⟩

end Machine

end Brainfuck
