import Brainfuck.Proofs.Outcome
import Brainfuck.Proofs.Sizing
import Brainfuck.Proofs.TraceText

/-! # A trace records its run

With tracing on, a run leaves one line for every instruction it tries, and what it reports and puts
out can be read off these lines.

* `Machine.view?` — what there is to record in front of a step;
* `Machine.Recorded` — records that are those of the steps from a machine on, with the output that
  goes with them;
* `recorded_after`, `runProgram_of_recorded` — the records of a number of steps and of a whole run.

An instruction is recorded before it takes effect, so one that fails has its record, though it is
not counted as a step.  It is a `>` (`Nested.fault_of_accepted`), and puts nothing out.
-/

namespace Brainfuck

/-- The bytes that a trace says are put out: the cells that its `.`s find. -/
def writtenBy (records : List TraceRecord) : List UInt8 :=
  (records.filter (·.instruction = .output)).map (·.value)

theorem writtenBy_append (first second : List TraceRecord) :
    writtenBy (first ++ second) = writtenBy first ++ writtenBy second := by
  simp [writtenBy]

theorem length_writtenBy (records : List TraceRecord) :
    (writtenBy records).length = records.countP (·.instruction = .output) := by
  rw [writtenBy, List.length_map, List.countP_eq_length_filter]

namespace Machine

variable {m now next last : Machine} {i : Instruction} {e : Effect} {r : TraceRecord}

/-- What there is to record in front of a step: where the instruction at hand stands, and the
pointer and the cell as it finds them. -/
def view? (m : Machine) : Option TraceRecord :=
  m.current?.map fun i => ⟨m.position, i, m.tape.pointer, m.tape.read⟩

theorem trace_record (on : m.tracing = true) (here : m.current? = some i) :
    ∃ r, m.view? = some r ∧ r.instruction = i ∧ r.position = m.position ∧
      (m.record i).trace.toList = m.trace.toList ++ [r] := by
  refine ⟨⟨m.position, i, m.tape.pointer, m.tape.read⟩, ?_, rfl, rfl, ?_⟩
  · rw [view?, here, Option.map_some]
  · rw [record, if_pos on, Array.toList_push]

theorem output_carryOut (view : m.view? = some r) (does : m.effectOf r.instruction = .ok e) :
    (m.carryOut e).output.toList = m.output.toList ++ writtenBy [r] := by
  obtain ⟨i, _, rfl⟩ := Option.map_eq_some_iff.mp view
  obtain rfl : e.instruction = i := instruction_of_effectOf does
  cases e <;> simp [carryOut, goto, writeByte, writtenBy, Effect.instruction]

/-- One step more leaves one record more, of what there was in front of it, and puts out what the
record says. -/
theorem record_of_step (on : m.tracing = true) (stepped : m.step = .ran next) :
    next.tracing = true ∧ ∃ r, m.view? = some r ∧
      next.trace.toList = m.trace.toList ++ [r] ∧
      next.output.toList = m.output.toList ++ writtenBy [r] := by
  obtain ⟨i, e, here, does, rfl⟩ := step_eq_ran_iff.mp stepped
  obtain ⟨r, view, rfl, _, traced⟩ := trace_record on here
  have view' : (m.record r.instruction).view? = some r := by
    simpa [view?, current?] using view
  have written := output_carryOut view' (by rwa [effectOf_record])
  rw [output_record] at written
  exact ⟨by simp [on], r, view, by rw [trace_carryOut, traced], written⟩

/-- The records are those of the first steps from a machine on, the last one perhaps of a step that
fails, and the bytes are those that they say are put out. -/
structure Recorded (start : Machine) (records : List TraceRecord) (output : List UInt8) :
    Prop where
  view_eq : ∀ k r, records[k]? = some r → ∃ now, start.after k = some now ∧ now.view? = some r
  output_eq : output = writtenBy records

theorem Recorded.concat {records : List TraceRecord} {output : List UInt8}
    (h : m.Recorded records output) (reached : m.after records.length = some now)
    (view : now.view? = some r) : m.Recorded (records ++ [r]) (output ++ writtenBy [r]) where
  view_eq k r' found := by
    by_cases before : k < records.length
    · rw [List.getElem?_append_left before] at found
      exact h.view_eq k r' found
    · obtain rfl : k = records.length := by
        have within := (List.getElem?_eq_some_iff.mp found).1
        rw [List.length_append, List.length_singleton] at within
        omega
      rw [List.getElem?_concat_length] at found
      cases found
      exact ⟨now, reached, view⟩
  output_eq := by rw [writtenBy_append, h.output_eq]

/-- What a machine leaves that starts with nothing written and nothing traced. -/
theorem recorded_after (on : m.tracing = true) (untraced : m.trace = #[])
    (unwritten : m.output = #[]) {n : Nat} (reached : m.after n = some last) :
    last.tracing = true ∧ last.trace.toList.length = n ∧
      m.Recorded last.trace.toList last.output.toList := by
  induction n generalizing last with
  | zero =>
    cases reached
    rw [untraced, unwritten]
    exact ⟨on, rfl, by simp, rfl⟩
  | succ n ih =>
    -- the induction is on the last step, for it is there that the trace grows
    obtain ⟨before, arrived⟩ := after_of_le reached (Nat.le_succ n)
    rw [after_add arrived 1] at reached
    obtain ⟨next, stepped, same⟩ := after_succ_inv reached
    obtain rfl : next = last := Option.some.inj same
    obtain ⟨tracing, counted, recorded⟩ := ih arrived
    obtain ⟨tracing, r, view, traced, written⟩ := record_of_step tracing stepped
    rw [traced, written]
    refine ⟨tracing, by rw [List.length_append, counted, List.length_singleton], ?_⟩
    exact recorded.concat (by rwa [counted]) view

theorem outputBytes_of_execute (fresh : m.reset = m) (unwritten : m.output = #[]) {fuel : Nat}
    {report : Report} (ended : m.execute fuel = some (last, report)) :
    report.outputBytes = last.output.size := by
  have uncounted : m.writes = 0 := (congrArg writes fresh).symm
  obtain ⟨_, _, rfl, rfl⟩ | ⟨_, _, before, outcome, reached, stops, same⟩ :=
    execute_of_fresh fresh ended
  · simp [unwritten]
  · obtain ⟨bytes, written, counted⟩ := exists_written_after reached
    rw [same, reportOf, writes_of_stop? stops, output_of_stop? stops, written, counted, uncounted,
      unwritten, Array.size_append]
    rfl

/-- The records of a whole execution: one for every step, and one more for the `>` that the cap
refuses. -/
theorem recorded_of_execute (fresh : m.reset = m) (on : m.tracing = true)
    (untraced : m.trace = #[]) (unwritten : m.output = #[]) {fuel : Nat} {report : Report}
    (ended : m.execute fuel = some (last, report)) :
    m.Recorded last.trace.toList last.output.toList ∧
    match report.failure with
    | none => last.trace.toList.length = report.steps
    | some (.unbalanced error) =>
      m.program.checkBrackets = .error error ∧ last.trace.toList = []
    | some (.fault fault position) =>
      fault = .memoryLimit m.tape.maxCells ∧ last.trace.toList.length = report.steps + 1 ∧
        ∃ r, last.trace.toList.getLast? = some r ∧ r.instruction = .moveRight ∧
          r.position = (Failure.fault fault position).position := by
  obtain ⟨error, rejected, rfl, rfl⟩ | ⟨accepted, _, before, outcome, reached, stops, same⟩ :=
    execute_of_fresh fresh ended
  · rw [untraced, unwritten]
    exact ⟨⟨by simp, rfl⟩, rejected, rfl⟩
  · obtain ⟨tracing, counted, recorded⟩ := recorded_after on untraced unwritten reached
    unfold stop? at stops
    split at stops
    · cases stops
      rw [same]
      exact ⟨recorded, counted.trans (by rw [same])⟩
    · cases stops
    · rename_i fault next failed
      cases stops
      have nested : before.Nested := (fresh ▸ nested_reset m).after reached
      have limit := nested.fault_of_accepted (by rwa [program_after reached]) failed
      obtain ⟨i, here, fails, rfl⟩ := step_eq_failed_iff.mp failed
      subst limit
      obtain ⟨rfl, _⟩ := pointer_of_memoryLimit fails
      obtain ⟨r, view, right, place, traced⟩ := trace_record tracing here
      -- a `>` puts nothing out, so the last record is one of the output as it is
      have silent : writtenBy [r] = [] := by simp [writtenBy, right]
      have further := recorded.concat (by rwa [counted]) view
      rw [silent, List.append_nil] at further
      rw [same, traced, output_record]
      refine ⟨further, ?_, ?_, r, ?_, right, ?_⟩
      · rw [maxCells_after reached]
      · rw [List.length_append, counted, same, List.length_singleton]
      · exact List.getLast?_concat
      · rw [place, position_record]
        rfl

end Machine

/-- The trace of a run tells the run.  The text splits into lines, each with its line end, and from
each of them the one record is read that it can show, so that no other records have this text.  The
records are what there was to record in front of the first instruction, the second and so on, each
before it took effect.  There is one for every step of a run that comes to its end; where the cap
ends the run there is one more, for the `>` at the position that is reported; there is none where
the brackets are refused.  The bytes put out are the cells that the `.`s of the trace find, in
order, and the report counts these. -/
theorem runProgram_of_recorded {fuel : Nat} {p : Program} {input : List UInt8} {tracing : Bool}
    {s : Settings} {shown : RunOutcome} (on : (tracing || s.debug) = true)
    (ran : runProgram fuel p input tracing s = .ok shown) :
    ∃ m lines, Machine.start? p input tracing s = .ok m ∧
      (traceText shown.trace).toList.splitOn '\n' = lines ++ [[]] ∧
      lines.map TraceRecord.read? = shown.trace.map some ∧
      (∀ line ∈ lines, ∃! r : TraceRecord, r.line.toList = line) ∧
      (∀ records, traceText records = traceText shown.trace → records = shown.trace) ∧
      (∀ k r, shown.trace[k]? = some r → ∃ now, m.after k = some now ∧ now.view? = some r) ∧
      (match shown.report.failure with
        | none => shown.trace.length = shown.report.steps
        | some (.unbalanced error) => p.checkBrackets = .error error ∧ shown.trace = []
        | some (.fault fault position) =>
          fault = .memoryLimit m.tape.maxCells ∧ shown.trace.length = shown.report.steps + 1 ∧
            ∃ r, shown.trace.getLast? = some r ∧ r.instruction = .moveRight ∧
              r.position = (Failure.fault fault position).position) ∧
      shown.output = (shown.trace.filter (·.instruction = .output)).map (·.value) ∧
      shown.report.outputBytes = shown.trace.countP (·.instruction = .output) := by
  obtain ⟨tape, starts⟩ := exists_tape_of_runProgram ran
  rw [runProgram_of_start (starts input), on] at ran
  obtain ⟨last, ended, output, trace⟩ := Machine.outcome_eq_ok_iff.mp ran
  obtain ⟨recorded, lengths⟩ := Machine.recorded_of_execute rfl rfl rfl rfl ended
  have counted := Machine.outputBytes_of_execute rfl rfl ended
  have started := starts input
  rw [on] at started
  rw [← output, ← trace] at recorded
  rw [← trace] at lengths
  refine ⟨_, shown.trace.map (·.line.toList), started, splitOn_traceText _, ?_, ?_,
    fun records same => traceText_injective same, recorded.view_eq, lengths, recorded.output_eq, ?_⟩
  · rw [List.map_map]
    exact List.map_congr_left fun r _ => r.read?_line
  · intro line member
    obtain ⟨r, _, rfl⟩ := List.mem_map.mp member
    exact ⟨r, rfl, fun r' same => TraceRecord.line_injective (String.toList_inj.mp same)⟩
  · rw [counted, ← Array.length_toList, ← output, recorded.output_eq, length_writtenBy]

/-- Two bytes are put out before the cap refuses the second `>`, which is the seventh record of a
run of six steps. -/
theorem runProgram_of_recorded_memoryLimit :
    let p := Program.ofText "+.>++.>,."
    let s : Settings := { initialCells := 1, maxCells := 2, debug := true }
    ∃ shown m lines, runProgram 20 p [7] false s = .ok shown ∧
      Machine.start? p [7] false s = .ok m ∧
      shown.report = ⟨6, 2, some (.fault (.memoryLimit 2) 6)⟩ ∧ shown.output = [1, 2] ∧
      (traceText shown.trace).toList.splitOn '\n' = lines ++ [[]] ∧ lines.length = 7 ∧
      ∃ now, m.after 6 = some now ∧ now.view? = some ⟨6, .moveRight, 1, 2⟩ := by
  intro p s
  have ends : (runProgram 20 p [7] false s).toOption.map
      (fun o => (o.report, o.output, o.trace[6]?)) =
      some (⟨6, 2, some (.fault (.memoryLimit 2) 6)⟩, [1, 2], some ⟨6, .moveRight, 1, 2⟩) := by
    decide +kernel
  obtain ⟨shown, ran, seen⟩ := Option.map_eq_some_iff.mp ends
  simp only [Prod.mk.injEq] at seen
  obtain ⟨report, output, seventh⟩ := seen
  have ran : runProgram 20 p [7] false s = .ok shown := eq_ok_of_toOption ran
  obtain ⟨m, lines, started, split, read, _, _, views, counted, _⟩ :=
    runProgram_of_recorded rfl ran
  rw [report] at counted
  have seven : lines.length = 7 := by
    have same := congrArg List.length read
    rwa [List.length_map, List.length_map, counted.2.1] at same
  exact ⟨shown, m, lines, ran, started, report, output, split, seven, views 6 _ seventh⟩

end Brainfuck
