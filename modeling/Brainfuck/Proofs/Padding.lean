import Brainfuck.Proofs.Forgetting
import Brainfuck.Proofs.Reading
import Brainfuck.Proofs.Sizing

/-! # Input without end

A program cannot tell where its input ends: it reads zeros from there on.

* `Input.padded` — the input as a stream that goes on with zeros;
* `stored_eq`, `reads_after` — what the `,`s of a run store, and how many of them find a byte;
* `after_fed`, `execute_fed` — a run goes the same way on another input that has the same bytes
  where it reads;
* `passive_readable` — an input that cannot be read does what an empty one does;
* `runProgram_of_padded` — all of this for the run of a program.

A run looks at the front of its stream only, as many bytes as it carries out `,`s.  A step that
reads takes the first byte of the stream and leaves the rest of it (`Input.padded_next`), so one
induction on the number of steps carries the agreement of two streams along, shorter by one at each
`,`.
-/

namespace Brainfuck

namespace Input

/-- The input as a stream without end: behind its bytes it goes on with zeros. -/
def padded (input : Input) (k : Nat) : UInt8 :=
  input.unread[k]?.getD 0

theorem padded_zero (input : Input) : input.padded 0 = input.next.1.getD 0 := by
  rw [padded, next_fst_eq, List.head?_eq_getElem?]

theorem padded_next (input : Input) (k : Nat) : input.next.2.padded k = input.padded (k + 1) := by
  rw [padded, unread_next, List.getElem?_drop, Nat.add_comm, padded]

theorem next_bytes_unread (input : Input) :
    (bytes input.unread).next = (input.next.1, bytes input.next.2.unread) := by
  cases input with
  | bytes unread => cases unread <;> rfl
  | broken => rfl

theorem padded_append_zeros (input : List UInt8) (zeros k : Nat) :
    (bytes (input ++ List.replicate zeros 0)).padded k = (bytes input).padded k := by
  simp only [padded, unread]
  by_cases inside : k < input.length
  · rw [List.getElem?_append_left inside]
  · have outside : input.length ≤ k := Nat.le_of_not_lt inside
    rw [List.getElem?_append_right outside, List.getElem?_eq_none outside, List.getElem?_replicate]
    split <;> rfl

theorem padded_take_append {input : List UInt8} {n k : Nat} (all : n ≤ input.length)
    (within : k < n) (rest : List UInt8) :
    (bytes (input.take n ++ rest)).padded k = (bytes input).padded k := by
  have inside : k < (input.take n).length := by
    rw [List.length_take]
    omega
  simp only [padded, unread]
  rw [List.getElem?_append_left inside, List.getElem?_take_of_lt within]

end Input

namespace Machine

variable {m next last : Machine} {n : Nat}

/-! ## What a run stores -/

/-- The bytes that the `,`s among the first `n` steps store. -/
def stored : Nat → Machine → List UInt8
  | 0, _ => []
  | n + 1, m =>
    match m.step with
    | .ran next => (if m.current? = some .input then [next.tape.read] else []) ++ stored n next
    | _ => []

theorem padded_of_step (stepped : m.step = .ran next) (k : Nat) :
    next.input.padded k =
      m.input.padded (if m.current? = some .input then k + 1 else k) := by
  rw [input_of_step stepped]
  split
  · exact m.input.padded_next k
  · rfl

theorem stored_eq (n : Nat) (m : Machine) :
    m.stored n = (List.range (m.commas n)).map m.input.padded := by
  induction n generalizing m with
  | zero => rfl
  | succ n ih =>
    rw [stored, commas]
    cases stepped : m.step with
    | ran next =>
      by_cases reads : m.current? = some .input
      · obtain ⟨next', stepped', first⟩ := read_of_input_step reads
        obtain rfl := Step.ran.inj (stepped.symm.trans stepped')
        have shift : ∀ k, next.input.padded k = m.input.padded (k + 1) := by
          simpa [reads] using padded_of_step stepped
        simp only [reads, if_true, ih, Nat.add_comm 1, List.range_succ_eq_map, List.map_cons,
          List.map_map, List.singleton_append, List.cons.injEq]
        refine ⟨?_, List.map_congr_left fun k _ => shift k⟩
        rw [first, Input.padded, List.head?_eq_getElem?]
      · have stays : next.input.padded = m.input.padded := by
          funext k
          simpa [reads] using padded_of_step stepped k
        simp [reads, ih, stays]
    | _ => rfl

/-! ## How many bytes are read -/

@[simp] theorem reads_record (m : Machine) (i : Instruction) : (m.record i).reads = m.reads := by
  unfold record
  split <;> rfl

theorem reads_of_step (stepped : m.step = .ran next) :
    next.reads = m.reads + m.takes?.toList.length := by
  obtain ⟨i, e, here, does, rfl⟩ := step_eq_ran_iff.mp stepped
  obtain rfl := instruction_of_effectOf does
  cases e with
  | input => simp [carryOut, goto, readByte_eq, takes?, here, Effect.instruction]
  | _ => simp [carryOut, goto, writeByte, takes?, here, Effect.instruction]

theorem reads_after_eq_taken (reached : m.after n = some last) :
    last.reads = m.reads + (m.taken n).length := by
  induction n generalizing m with
  | zero =>
    cases reached
    rfl
  | succ n ih =>
    obtain ⟨next, stepped, onward⟩ := after_succ_inv reached
    rw [taken, stepped, ih onward, reads_of_step stepped, List.length_append, Nat.add_assoc]

/-- The `,`s find a byte as long as there is one. -/
theorem reads_after (reached : m.after n = some last) :
    last.reads = m.reads + min (m.commas n) m.input.unread.length := by
  -- what is taken is the input but for what is left, and that is what the `,`s leave of it
  have split := congrArg List.length (unread_after reached)
  have rest := congrArg List.length (unread_after_eq_drop reached)
  rw [List.length_append] at split
  rw [List.length_drop] at rest
  rw [reads_after_eq_taken reached]
  omega

/-! ## The same bytes in another input -/

/-- The machine with another input, and with another count of the bytes read. -/
def fed (input : Input) (reads : Nat) (m : Machine) : Machine :=
  { m with input := input, reads := reads }

theorem record_fed (input : Input) (reads : Nat) (m : Machine) (i : Instruction) :
    (m.fed input reads).record i = (m.record i).fed input reads := by
  cases on : m.tracing <;> simp [record, fed, on]

theorem effectOf_fed (input : Input) (reads : Nat) (m : Machine) :
    (m.fed input reads).effectOf = m.effectOf := by
  funext i
  cases i <;> rfl

theorem exists_carryOut_fed {input : Input} {e : Effect} (reads : Nat)
    (agree : e = .input → input.padded 0 = m.input.padded 0) :
    ∃ count, (m.fed input reads).carryOut e =
      (m.carryOut e).fed (if e = .input then input.next.2 else input) count := by
  cases e with
  | input =>
    have first := agree rfl
    rw [Input.padded_zero, Input.padded_zero] at first
    refine ⟨reads + input.next.1.toList.length, ?_⟩
    simp only [carryOut, goto, readByte_eq, fed, first, if_true]
  | _ => exact ⟨reads, rfl⟩

theorem exists_step_fed (input : Input) (reads : Nat) (stepped : m.step = .ran next)
    (agree : m.current? = some .input → input.padded 0 = m.input.padded 0) :
    ∃ count, (m.fed input reads).step =
      .ran (next.fed (if m.current? = some .input then input.next.2 else input) count) := by
  obtain ⟨i, e, here, does, rfl⟩ := step_eq_ran_iff.mp stepped
  obtain rfl := instruction_of_effectOf does
  have reads_iff : e = .input ↔ m.current? = some .input := by
    rw [here]
    cases e <;> simp [Effect.instruction]
  obtain ⟨count, carried⟩ := exists_carryOut_fed (m := m.record e.instruction) (e := e) reads
    fun reads => by simpa using agree (reads_iff.mp reads)
  refine ⟨count, step_eq_ran_iff.mpr ⟨_, e, here, by rwa [effectOf_fed], ?_⟩⟩
  rw [record_fed, carried]
  simp only [reads_iff]

/-- A run goes the same way on every input that has the same bytes where the run reads. -/
theorem after_fed {input : Input} {reads : Nat} (reached : m.after n = some last)
    (agree : ∀ k < m.commas n, input.padded k = m.input.padded k) :
    ∃ rest count, (m.fed input reads).after n = some (last.fed rest count) := by
  induction n generalizing m input reads with
  | zero =>
    cases reached
    exact ⟨input, reads, rfl⟩
  | succ n ih =>
    obtain ⟨next, stepped, onward⟩ := after_succ_inv reached
    rw [commas, stepped] at agree
    obtain ⟨count, stepped'⟩ := exists_step_fed input reads stepped fun here =>
      agree 0 (by simp only [here, if_true]; omega)
    rw [after_succ stepped']
    refine ih onward fun k within => ?_
    -- behind a `,` both streams are one byte shorter
    rw [padded_of_step stepped]
    split
    · rename_i here
      rw [Input.padded_next]
      exact agree (k + 1) (by simp only [here, if_true]; omega)
    · rename_i other
      exact agree k (by simpa [other] using within)

theorem stop?_fed (input : Input) (reads : Nat) (m : Machine) :
    (m.fed input reads).stop? =
      m.stop?.map fun (last, outcome) => (last.fed input reads, outcome) := by
  cases here : m.current? with
  | none =>
    have halted : m.step = .halted := step_eq_halted_iff.mpr here
    have halted' : (m.fed input reads).step = .halted := step_eq_halted_iff.mpr here
    simp [stop?, halted, halted']
  | some i =>
    cases does : m.effectOf i with
    | ok e =>
      have ran := step_eq_ran_iff.mpr ⟨i, e, here, does, rfl⟩
      have ran' := step_eq_ran_iff (m := m.fed input reads).mpr
        ⟨i, e, here, by rwa [effectOf_fed], rfl⟩
      simp [stop?, ran, ran']
    | error fault =>
      have failed := step_eq_failed_iff.mpr ⟨i, here, does, rfl⟩
      have failed' := step_eq_failed_iff (m := m.fed input reads).mpr
        ⟨i, here, by rwa [effectOf_fed], rfl⟩
      simp [stop?, failed, failed', record_fed]

theorem execute_fed {fuel : Nat} {report : Report} {input : Input} (fresh : m.reset = m)
    (ended : m.execute fuel = some (last, report))
    (agree : ∀ k < m.commas report.steps, input.padded k = m.input.padded k) :
    ∃ rest count, (m.fed input 0).execute fuel = some (last.fed rest count, report) := by
  obtain ⟨error, checked, rfl, _⟩ | ⟨accepted, enough, before, outcome, reached, stops, same⟩ :=
    execute_of_fresh fresh ended
  · have refused := ended.symm.trans (execute_of_rejected checked fuel)
    rw [(Prod.mk.inj (Option.some.inj refused)).2]
    exact ⟨input, 0, execute_of_rejected (m := last.fed input 0) checked fuel⟩
  · obtain ⟨rest, count, reached'⟩ := after_fed reached agree
    have stops' : (before.fed rest count).stop? = some (last.fed rest count, outcome) := by
      rw [stop?_fed, stops]
      rfl
    have fresh' : (m.fed input 0).reset = m.fed input 0 := congrArg (fed input 0) fresh
    refine ⟨rest, count, (execute_eq_some_iff (m := m.fed input 0) accepted).mpr
      ⟨_, enough, _, outcome, ?_, stops', same⟩⟩
    rwa [fresh']

/-! ## An input that cannot be read -/

/-- The machine with the bytes that it can read, and none where it can read none. -/
def readable (m : Machine) : Machine :=
  { m with input := .bytes m.input.unread }

theorem passive_readable : Passive readable where
  program_eq _ := rfl
  position_eq _ := rfl
  steps_eq _ := rfl
  writes_eq _ := rfl
  effectOf_eq m := by
    funext i
    cases i <;> rfl
  reset_eq _ := rfl
  record_eq m i := by
    cases on : m.tracing <;> simp [record, readable, on]
  carryOut_eq m e := by
    cases e with
    | input =>
      simp only [carryOut, goto, readByte_eq, readable, Input.next_bytes_unread]
    | _ => rfl

theorem outcome_readable (m : Machine) (fuel : Nat) :
    m.readable.outcome fuel = m.outcome fuel := by
  simp only [outcome, passive_readable.execute]
  cases m.execute fuel <;> rfl

theorem outcome_fed {fuel : Nat} {shown : RunOutcome} {input : Input} (fresh : m.reset = m)
    (ended : m.outcome fuel = .ok shown)
    (agree : ∀ k < m.commas shown.report.steps, input.padded k = m.input.padded k) :
    (m.fed input 0).outcome fuel = .ok shown := by
  obtain ⟨last, ended, output, trace⟩ := outcome_eq_ok_iff.mp ended
  obtain ⟨rest, count, ended'⟩ := execute_fed fresh ended agree
  exact outcome_eq_ok_iff.mpr ⟨_, ended', output, trace⟩

theorem reads_of_execute {fuel : Nat} {report : Report} (fresh : m.reset = m)
    (ended : m.execute fuel = some (last, report)) :
    last.reads = min (m.commas report.steps) m.input.unread.length := by
  have none : m.reads = 0 := (congrArg reads fresh).symm
  obtain ⟨_, _, rfl, rfl⟩ | ⟨_, _, before, outcome, reached, stops, _⟩ :=
    execute_of_fresh fresh ended
  · rw [none, commas, Nat.zero_min]
  · rw [eq_of_stop? (f := reads) before.reads_record stops, reads_after reached, none, Nat.zero_add]

end Machine

/-- A run that ends carries out some number `R` of `,`s.  They store the first `R` bytes of the
input, with zeros behind its end, and as many of them find a byte as there are.  On every input that
goes on with the same bytes for that long the run shows the same: with zeros put behind the input,
and with anything else behind its first `R` bytes.  Where the input cannot be read at all a program
does what it does on an empty one. -/
theorem runProgram_of_padded {fuel : Nat} {p : Program} {input : List UInt8} {tracing : Bool}
    {s : Settings} {shown : RunOutcome} (ran : runProgram fuel p input tracing s = .ok shown) :
    ∃ m last, Machine.start? p input tracing s = .ok m ∧
      m.execute fuel = some (last, shown.report) ∧
      let R := m.commas shown.report.steps
      m.stored shown.report.steps = (List.range R).map (Input.bytes input).padded ∧
      last.reads = min R input.length ∧
      (∀ other, (∀ k < R, (Input.bytes other).padded k = (Input.bytes input).padded k) →
        runProgram fuel p other tracing s = .ok shown) ∧
      (∀ zeros, runProgram fuel p (input ++ List.replicate zeros 0) tracing s = .ok shown) ∧
      (R ≤ input.length → ∀ rest,
        runProgram fuel p (input.take R ++ rest) tracing s = .ok shown) ∧
      ∀ more, ({ m with input := .broken } : Machine).outcome more =
        runProgram more p [] tracing s := by
  obtain ⟨tape, starts⟩ := exists_tape_of_runProgram ran
  rw [runProgram_of_start (starts input)] at ran
  obtain ⟨last, ended, _⟩ := Machine.outcome_eq_ok_iff.mp ran
  -- the machine that a run starts from is reset, whatever its input is
  have others : ∀ other,
      (∀ k < ((Machine.onTape tape (tracing || s.debug) (.bytes input)).load p).commas
        shown.report.steps, (Input.bytes other).padded k = (Input.bytes input).padded k) →
      runProgram fuel p other tracing s = .ok shown := by
    intro other agree
    rw [runProgram_of_start (starts other)]
    exact Machine.outcome_fed rfl ran agree
  refine ⟨_, last, starts input, ended, Machine.stored_eq _ _, Machine.reads_of_execute rfl ended,
    others, fun zeros => ?_, fun all rest => ?_, fun more => ?_⟩
  · exact others _ fun k _ => Input.padded_append_zeros input zeros k
  · exact others _ fun k within => Input.padded_take_append all within rest
  · rw [runProgram_of_start (starts []), ← Machine.outcome_readable]
    rfl

/-- One byte for three `,`s: the other two store zeros, and the run shows the same where these zeros
are in the input and something else is behind them. -/
theorem runProgram_of_padded_shortInput :
    let p := Program.ofText ",>,[-]>,.<<."
    let s : Settings := { initialCells := 1, maxCells := 3 }
    ∃ shown m last, shown.report = ⟨10, 2, none⟩ ∧ shown.output = [0, 7] ∧
      runProgram 20 p [7] true s = .ok shown ∧ Machine.start? p [7] true s = .ok m ∧
      m.execute 20 = some (last, shown.report) ∧ m.stored 10 = [7, 0, 0] ∧ last.reads = 1 ∧
      runProgram 20 p [7, 0, 0, 9] true s = .ok shown := by
  intro p s
  have ends : (runProgram 20 p [7] true s).toOption.map (fun o => (o.report, o.output)) =
      some (⟨10, 2, none⟩, [0, 7]) := by
    decide +kernel
  obtain ⟨shown, ran, seen⟩ := Option.map_eq_some_iff.mp ends
  obtain ⟨report, output⟩ := Prod.mk.inj seen
  have ran : runProgram 20 p [7] true s = .ok shown := eq_ok_of_toOption ran
  obtain ⟨m, last, started, ended, stored, reads, others, _⟩ := runProgram_of_padded ran
  obtain rfl : (Machine.onTape (Tape.blank 1 3 (by decide) (by decide)) true
      (.bytes [7])).load p = m := Except.ok.inj started
  have steps : shown.report.steps = 10 := by rw [report]
  have three : ((Machine.onTape (Tape.blank 1 3 (by decide) (by decide)) true
      (.bytes [7])).load p).commas 10 = 3 := by
    decide +kernel
  rw [steps, three] at stored reads others
  exact ⟨shown, _, last, report, output, ran, started, ended, stored, reads,
    others [7, 0, 0, 9] (by decide)⟩

end Brainfuck
