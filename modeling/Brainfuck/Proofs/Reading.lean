import Brainfuck.Proofs.Stepping

/-! # What a run reads

The bytes that the steps of a run take from the input, in order, and where each of them comes from.

* `taken`, `unread_after` — the bytes taken by a number of steps are those missing from the input;
* `commas`, `read_of_input` — each `,` stores the byte behind those of the `,`s before it, or zero
  when there is none left;
* `bytesRead`, `unread_of_execute` — the same for an execution; a refused one reads nothing.

A step that takes no byte leaves the input alone, and one that does takes its first byte
(`unread_of_step`); everything else follows by induction on the number of steps.
-/

namespace Brainfuck

namespace Input

theorem unread_eq (input : Input) : input.unread = input.next.1.toList ++ input.next.2.unread := by
  cases input with
  | bytes unread => cases unread <;> rfl
  | broken => rfl

theorem next_fst_eq (input : Input) : input.next.1 = input.unread.head? := by
  cases input with
  | bytes unread => cases unread <;> rfl
  | broken => rfl

theorem unread_next (input : Input) : input.next.2.unread = input.unread.drop 1 := by
  cases input with
  | bytes unread => cases unread <;> rfl
  | broken => rfl

end Input

namespace Machine

variable {m next last : Machine} {i : Instruction} {e : Effect} {n : Nat}

/-! ## One step -/

@[simp] theorem input_record (m : Machine) (i : Instruction) : (m.record i).input = m.input := by
  unfold record
  split <;> rfl

/-- A `,` stores a byte whether there is one left or not. -/
theorem readByte_eq (m : Machine) :
    m.readByte = { m with
      tape := m.tape.put (m.input.next.1.getD 0)
      input := m.input.next.2
      reads := m.reads + m.input.next.1.toList.length } := by
  unfold readByte
  split <;> rename_i taken <;> rw [taken] <;> rfl

theorem input_carryOut (m : Machine) (e : Effect) :
    (m.carryOut e).input = if e = .input then m.input.next.2 else m.input := by
  cases e with
  | input =>
    rw [if_pos rfl, carryOut, readByte_eq]
    rfl
  | _ => rfl

theorem effectOf_eq_input_iff : m.effectOf i = .ok .input ↔ i = .input := by
  constructor
  · exact fun does => (instruction_of_effectOf does).symm
  · rintro rfl
    rfl

/-- The byte that the next step takes from the input. -/
def takes? (m : Machine) : Option UInt8 :=
  if m.current? = some .input then m.input.next.1 else none

theorem input_of_step (stepped : m.step = .ran next) :
    next.input = if m.current? = some .input then m.input.next.2 else m.input := by
  obtain ⟨i, e, here, does, rfl⟩ := step_eq_ran_iff.mp stepped
  rw [input_carryOut, input_record, here]
  by_cases reads : i = .input
  · subst reads
    cases does
    rfl
  · have other : e ≠ .input := by
      rintro rfl
      exact reads (effectOf_eq_input_iff.mp does)
    rw [if_neg other, if_neg fun same => reads (Option.some.inj same)]

theorem unread_of_step (stepped : m.step = .ran next) :
    m.input.unread = m.takes?.toList ++ next.input.unread := by
  rw [input_of_step stepped, takes?]
  split
  · exact m.input.unread_eq
  · rfl

/-- A `,` stores the first byte that is not read yet, or zero. -/
theorem read_of_input_step (here : m.current? = some .input) :
    ∃ next, m.step = .ran next ∧ next.tape.read = m.input.unread.head?.getD 0 := by
  refine ⟨_, step_eq_ran_iff.mpr ⟨.input, .input, here, rfl, rfl⟩, ?_⟩
  simp only [carryOut, goto, readByte_eq, input_record, Input.next_fst_eq]
  simp [Tape.read, Tape.put]

/-! ## A number of steps -/

/-- The bytes that the first `n` steps take from the input; those behind the end of a run take
none. -/
def taken : Nat → Machine → List UInt8
  | 0, _ => []
  | n + 1, m =>
    match m.step with
    | .ran next => m.takes?.toList ++ taken n next
    | _ => []

/-- How many of the first `n` steps carry out a `,`. -/
def commas : Nat → Machine → Nat
  | 0, _ => 0
  | n + 1, m =>
    match m.step with
    | .ran next => (if m.current? = some .input then 1 else 0) + commas n next
    | _ => 0

/-- Nothing is lost or changed: what is taken and what is left are the input. -/
theorem unread_after (reached : m.after n = some last) :
    m.input.unread = m.taken n ++ last.input.unread := by
  induction n generalizing m with
  | zero =>
    cases reached
    rfl
  | succ n ih =>
    obtain ⟨next, stepped, onward⟩ := after_succ_inv reached
    rw [taken, stepped, unread_of_step stepped, ih onward, List.append_assoc]

theorem taken_prefix_unread (m : Machine) (n : Nat) : m.taken n <+: m.input.unread := by
  induction n generalizing m with
  | zero => exact List.nil_prefix
  | succ n ih =>
    rw [taken]
    split
    · rename_i next stepped
      rw [unread_of_step stepped]
      exact (List.prefix_append_right_inj _).mpr (ih next)
    · exact List.nil_prefix

/-- Behind the end of a run nothing is taken any more. -/
theorem taken_add {result : Machine × Option Fault} (reached : m.after n = some last)
    (stops : last.stop? = some result) (k : Nat) : m.taken (n + k) = m.taken n := by
  induction n generalizing m with
  | zero =>
    cases reached
    cases k with
    | zero => rfl
    | succ k =>
      rw [Nat.zero_add, taken, taken]
      split
      · rename_i next stepped
        simp [stop?, stepped] at stops
      · rfl
  | succ n ih =>
    obtain ⟨next, stepped, onward⟩ := after_succ_inv reached
    rw [Nat.succ_add, taken, taken, stepped]
    exact congrArg _ (ih onward)

theorem unread_after_eq_drop (reached : m.after n = some last) :
    last.input.unread = m.input.unread.drop (m.commas n) := by
  induction n generalizing m with
  | zero =>
    cases reached
    rfl
  | succ n ih =>
    obtain ⟨next, stepped, onward⟩ := after_succ_inv reached
    rw [commas, stepped, ih onward, input_of_step stepped]
    by_cases reads : m.current? = some .input
    · simp only [reads, if_true]
      rw [Input.unread_next, List.drop_drop]
    · simp only [reads, if_false, Nat.zero_add]

/-- A `,` stores the byte that as many bytes of the input stand in front of as there were `,`s
before it, and zero where the input is not that long. -/
theorem read_of_input (reached : m.after n = some last) (here : last.current? = some .input) :
    ∃ next, last.step = .ran next ∧
      next.tape.read = (m.input.unread[m.commas n]?).getD 0 := by
  obtain ⟨next, stepped, stored⟩ := read_of_input_step here
  refine ⟨next, stepped, ?_⟩
  rw [stored, unread_after_eq_drop reached, List.head?_drop]

/-! ## Executions -/

/-- The bytes that an execution reads in a bounded number of steps. -/
def bytesRead (fuel : Nat) (m : Machine) : List UInt8 :=
  match m.program.checkBrackets with
  | .error _ => []
  | .ok _ => m.reset.taken fuel

theorem bytesRead_prefix_unread (fuel : Nat) (m : Machine) :
    m.bytesRead fuel <+: m.input.unread := by
  unfold bytesRead
  split
  · exact List.nil_prefix
  · exact m.reset.taken_prefix_unread fuel

theorem unread_of_execute {fuel : Nat} {report : Report}
    (ended : m.execute fuel = some (last, report)) :
    m.input.unread = m.bytesRead fuel ++ last.input.unread := by
  cases checked : m.program.checkBrackets with
  | error error =>
    rw [execute_of_rejected checked] at ended
    cases ended
    rw [bytesRead, checked]
    rfl
  | ok _ =>
    obtain ⟨n, enough, before, outcome, reached, stops, _⟩ :=
      (execute_eq_some_iff checked).mp ended
    have kept : last.input = before.input := eq_of_stop? (f := input) before.input_record stops
    have whole := unread_after reached
    -- the bound is above the number of steps, and the steps behind the end take nothing
    obtain ⟨k, rfl⟩ := Nat.exists_eq_add_of_lt enough
    rw [bytesRead, checked, kept, Nat.add_assoc, taken_add reached stops]
    exact whole

theorem input_of_execute {fuel : Nat} {report : Report} {unread : List UInt8}
    (ended : m.execute fuel = some (last, report)) (shared : m.input = .bytes unread) :
    last.input = .bytes last.input.unread := by
  have stays : ∀ {m next : Machine}, m.step = .ran next → m.input = .bytes m.input.unread →
      next.input = .bytes next.input.unread := by
    intro m next stepped bytes
    rw [input_of_step stepped]
    split
    · rw [bytes]
      cases m.input.unread <;> rfl
    · exact bytes
  cases checked : m.program.checkBrackets with
  | error error =>
    rw [execute_of_rejected checked] at ended
    cases ended
    rw [shared]
    rfl
  | ok _ =>
    obtain ⟨n, _, before, outcome, reached, stops, _⟩ := (execute_eq_some_iff checked).mp ended
    have kept : last.input = before.input := eq_of_stop? (f := input) before.input_record stops
    rw [kept]
    refine after_induction (P := fun m => m.input = .bytes m.input.unread) reached
      (fun _ _ stepped => stays stepped) ?_
    show m.input = .bytes m.input.unread
    rw [shared]
    rfl

end Machine

end Brainfuck
