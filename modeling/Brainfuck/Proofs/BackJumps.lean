import Brainfuck.Proofs.Atomicity

/-! # Back jumps

A run is long only by going back.  Every step but a back jump takes a machine forward in its
program, so that a program of `n` instructions takes at most `n` steps more for each back jump.

* `calls`, `successes` — the machine after some calls for a step, whatever comes of each, and how
  many of them were carried out;
* `JumpsBack`, `backJumps` — the steps that go back to the start of a loop, and how many there are;
* `position_lt_iff` — of the steps that are carried out only a back jump does not go forward;
* `successes_le_of_backJumps` — the bound on the steps, and the ends that follow from it.

The bound is carried by a potential.  A step is paid for by the place that it gains, and a back jump
by the length of the program, for it stands in front of the end (`successes_le`).
-/

namespace Brainfuck

/-- Whether an instruction was carried out. -/
def Step.succeeded : Step → Bool
  | .ran _ => true
  | _ => false

namespace Machine

variable {m next : Machine} {k : Nat}

/-- The machine after a number of calls for a step.  A call at the end of the program changes
nothing, and one that runs into a fault leaves the machine as it is to the next. -/
def calls (m : Machine) : Nat → Machine
  | 0 => m
  | k + 1 => (m.calls k).step.machine (m.calls k)

/-- How many of the first calls for a step carry out an instruction. -/
def successes (m : Machine) : Nat → Nat
  | 0 => 0
  | k + 1 => m.successes k + if (m.calls k).step.succeeded then 1 else 0

/-- The next step goes back to the start of a loop: a `]` at a cell that is not zero, with a loop to
go back to. -/
def JumpsBack (m : Machine) : Prop :=
  m.current? = some .closeLoop ∧ m.tape.read ≠ 0 ∧ m.openLoops ≠ []

instance (m : Machine) : Decidable m.JumpsBack :=
  inferInstanceAs (Decidable (_ ∧ _))

/-- How many of the first calls for a step are back jumps. -/
def backJumps (m : Machine) : Nat → Nat
  | 0 => 0
  | k + 1 => m.backJumps k + if (m.calls k).JumpsBack then 1 else 0

/-- No further step is carried out: the machine is at the end of its program, or it runs into the
same fault however often it is called on to step. -/
def Over (m : Machine) : Prop :=
  (∀ j, (m.calls j).step = .halted) ∨ ∃ fault, ∀ j, ∃ after, (m.calls j).step = .failed fault after

/-! ## Forward and back -/

theorem step_of_jumpsBack (jumps : m.JumpsBack) :
    ∃ start outer, m.openLoops = start :: outer ∧
      m.step = .ran ((m.record .closeLoop).carryOut (.again start)) := by
  obtain ⟨here, nonzero, opened⟩ := jumps
  obtain ⟨start, outer, held⟩ := List.exists_cons_of_ne_nil opened
  refine ⟨start, outer, held, step_eq_ran_iff.mpr ⟨.closeLoop, .again start, here, ?_, rfl⟩⟩
  simp only [effectOf, held, if_neg nonzero]

theorem lt_target {i : Instruction} {e : Effect} (here : m.current? = some i)
    (does : m.effectOf i = .ok e) (forward : ¬ m.JumpsBack) : m.position < e.target m.position := by
  obtain ⟨_, _, target, _⟩ | ⟨rfl, _, close, found, rfl⟩ | ⟨_, _, rfl⟩ | ⟨_, _, _, rfl⟩ |
    ⟨rfl, nonzero, start, outer, opened, rfl⟩ := effectOf_eq_ok does
  · rw [target]
    exact Nat.lt_succ_self _
  · have closed := Program.closedBy_of_closeOf? (getElem?_of_current? here) found
    exact Nat.lt_succ_of_lt closed.behind
  · exact Nat.lt_succ_self _
  · exact Nat.lt_succ_self _
  · exact absurd ⟨here, nonzero, by simp [opened]⟩ forward

/-- Of the steps that are carried out only a back jump does not go forward: it goes to the first
instruction of a loop that was opened before. -/
theorem position_lt_iff (h : m.Nested) (stepped : m.step = .ran next) :
    m.position < next.position ↔ ¬ m.JumpsBack := by
  constructor
  · intro forward jumps
    obtain ⟨start, outer, opened, back⟩ := step_of_jumpsBack jumps
    obtain rfl := Step.ran.inj (stepped.symm.trans back)
    have held := h.scanned
    rw [opened] at held
    have before : start < m.position := (openBefore_cons h.inside held).1
    simp only [position_carryOut, Effect.target] at forward
    omega
  · intro forward
    obtain ⟨i, e, here, does, rfl⟩ := step_eq_ran_iff.mp stepped
    rw [position_carryOut, position_record]
    exact lt_target here does forward

/-! ## A number of calls -/

theorem calls_induction {P : Machine → Prop}
    (keeps : ∀ m, P m → P (m.step.machine m)) (start : P m) (k : Nat) : P (m.calls k) := by
  induction k with
  | zero => exact start
  | succ k ih => exact keeps _ ih

theorem nested_calls (h : m.Nested) (k : Nat) : (m.calls k).Nested :=
  calls_induction (fun _ nested =>
    machine_step nested (fun _ stepped => nested.step stepped) nested.record) h k

theorem program_calls (m : Machine) (k : Nat) : (m.calls k).program = m.program :=
  calls_induction (P := fun later => later.program = m.program) (fun later same =>
    machine_step (P := fun last => last.program = m.program) same
      (fun _ stepped => (program_of_step stepped).trans same)
      fun i => (later.program_record i).trans same) rfl k

/-- The machine counts the calls that are carried out. -/
theorem steps_calls (m : Machine) (k : Nat) : (m.calls k).steps = m.steps + m.successes k := by
  induction k with
  | zero => rfl
  | succ k ih =>
    rw [calls, successes, ← Nat.add_assoc, ← ih]
    cases stepped : (m.calls k).step with
    | halted => rfl
    | ran next => exact steps_after (after_one stepped)
    | failed fault after =>
      obtain ⟨i, _, _, rfl⟩ := step_eq_failed_iff.mp stepped
      exact steps_record _ i

/-- A step is paid for by the place that it gains, a back jump by the length of the program. -/
theorem successes_le (h : m.Nested) (k : Nat) :
    m.successes k ≤ m.backJumps k * m.program.size + (m.calls k).position := by
  induction k with
  | zero => exact Nat.zero_le _
  | succ k ih =>
    have nested := nested_calls h k
    have program := m.program_calls k
    rw [calls, successes, backJumps, Nat.add_mul]
    generalize m.calls k = now at ih nested program ⊢
    cases stepped : now.step with
    | halted =>
      simp only [Step.machine, Step.succeeded, Bool.false_eq_true, if_false]
      omega
    | ran next =>
      simp only [Step.machine, Step.succeeded, if_true]
      by_cases jumps : now.JumpsBack
      · -- the `]` stands in front of the end, so what it gives up is less than the length
        have inside : now.position < now.program.size :=
          (List.getElem?_eq_some_iff.mp (getElem?_of_current? jumps.1)).1
        rw [program] at inside
        rw [if_pos jumps]
        omega
      · have forward := (position_lt_iff nested stepped).mpr jumps
        omega
    | failed fault after =>
      obtain ⟨i, _, _, rfl⟩ := step_eq_failed_iff.mp stepped
      simp only [Step.machine, Step.succeeded, Bool.false_eq_true, if_false, position_record]
      omega

theorem successes_le_mul (h : m.Nested) (k : Nat) :
    m.successes k ≤ (m.backJumps k + 1) * m.program.size := by
  have paid := successes_le h k
  have inside := (nested_calls h k).inside
  rw [program_calls] at inside
  rw [Nat.succ_mul]
  omega

/-! ## The end -/

theorem over_of_not_succeeded (stuck : m.step.succeeded = false) : m.Over := by
  cases stepped : m.step with
  | halted =>
    have stays : ∀ j, m.calls j = m := by
      intro j
      induction j with
      | zero => rfl
      | succ j ih => rw [calls, ih, stepped, Step.machine]
    exact .inl fun j => (stays j).symm ▸ stepped
  | ran next =>
    rw [stepped] at stuck
    cases stuck
  | failed fault after =>
    refine .inr ⟨fault, calls_induction
      (P := fun later => ∃ after, later.step = .failed fault after) ?_ ⟨after, stepped⟩⟩
    rintro later ⟨after, failed⟩
    obtain ⟨i, here, fails, rfl⟩ := step_eq_failed_iff.mp failed
    rw [failed]
    exact ⟨_, failed_of_record here fails⟩

/-- A bound on the steps is a bound on the calls that are needed to come to the end. -/
theorem exists_over_of_successes_le {bound : Nat} (bounded : ∀ k, m.successes k ≤ bound) :
    ∃ k ≤ bound, (m.calls k).Over := by
  by_contra never
  -- otherwise each of the first calls is one more step
  have counted : ∀ k ≤ bound + 1, m.successes k = k := by
    intro k
    induction k with
    | zero => exact fun _ => rfl
    | succ k ih =>
      intro le
      have before := ih (by omega)
      cases succeeded : (m.calls k).step.succeeded with
      | true => rw [successes, before, succeeded, if_pos rfl]
      | false => exact absurd ⟨k, by omega, over_of_not_succeeded succeeded⟩ never
  have last := bounded (bound + 1)
  rw [counted _ (Nat.le_refl _)] at last
  omega

/-- A program is loaded, its brackets balanced or not, and called on to step any number of times, on
whatever input.  A step that is carried out goes forward exactly if it is no back jump, and the
machine never leaves the program.  The steps are at most as many as the program has instructions,
once and once more for each back jump.  So if there are only so many back jumps the machine comes to
the end of the program or to a fault, within that bound and for good; and where no `]` is ever
reached at a cell that is not zero, within as many steps as there are instructions. -/
theorem successes_le_of_backJumps (start : Machine) (p : Program) :
    let m := start.load p
    (∀ k next, (m.calls k).step = .ran next →
      ((m.calls k).position < next.position ↔ ¬ (m.calls k).JumpsBack)) ∧
    (∀ k, (m.calls k).position ≤ p.size) ∧
    (∀ k, (m.calls k).steps = m.successes k ∧
      m.successes k ≤ (m.backJumps k + 1) * p.size) ∧
    (∀ bound, (∀ k, m.backJumps k ≤ bound) → ∃ k ≤ (bound + 1) * p.size, (m.calls k).Over) ∧
    ((∀ k, (m.calls k).current? = some .closeLoop → (m.calls k).tape.read = 0) →
      ∃ k ≤ p.size, (m.calls k).Over) := by
  intro m
  have nested : m.Nested := nested_load start p
  have bounded : ∀ k, m.successes k ≤ (m.backJumps k + 1) * p.size := successes_le_mul nested
  refine ⟨fun k next stepped => ?_, fun k => ?_, fun k => ⟨?_, bounded k⟩, fun bound few => ?_,
    fun never => ?_⟩
  · exact position_lt_iff (nested_calls nested k) stepped
  · have inside := (nested_calls nested k).inside
    rwa [program_calls] at inside
  · rw [steps_calls]
    exact Nat.zero_add _
  · exact exists_over_of_successes_le fun k =>
      Nat.le_trans (bounded k) (Nat.mul_le_mul_right _ (Nat.succ_le_succ (few k)))
  · have none : ∀ k, m.backJumps k = 0 := by
      intro k
      induction k with
      | zero => rfl
      | succ k ih => rw [backJumps, ih, if_neg fun jumps => jumps.2.1 (never k jumps.1)]
    refine exists_over_of_successes_le fun k => ?_
    have total := bounded k
    rwa [none, Nat.zero_add, Nat.one_mul] at total

/-- A loop that is done three times, with a `]` behind it that closes nothing. -/
example :
    let m := (onTape (Tape.blank 1 1 (by decide) (by decide)) false (.bytes [])).load
      (Program.ofText "+++[-]]")
    m.backJumps 30 = 2 ∧ m.successes 30 = 10 ∧ (m.calls 30).position = 6 := by
  decide +kernel

end Machine

end Brainfuck
