import Brainfuck.Proofs.Commands
import Brainfuck.Proofs.Forgetting
import Brainfuck.Proofs.Sizing
import Brainfuck.Proofs.Words

/-! # What a shell shows is what it runs

A shell keeps the source of the loaded program and its machine keeps the program.  Both are put in
by the same commands, so they agree whenever there is a source (`Loaded`).  To clear forgets the
source alone, and that is why the agreement is asked for only where there is one.

* `Machine.fresh`, `outcome_fresh` — an execution shows what it would show on a new machine;
* `Event`, `afterAll` — what reaches a shell, and the shell after it;
* `loaded_of_events` — after any lines the counts that are shown are those of the source, and a run
  is one of the source on a blank tape.
-/

namespace Brainfuck

namespace Machine

variable {m : Machine} {fuel : Nat}

/-! ## Runs as on a new machine -/

/-- A new machine of the same sizes, with the tracing and the input of the machine. -/
def fresh (m : Machine) : Machine :=
  onTape m.tape.reset m.tracing m.input

theorem load_eq_prepend_fresh (m : Machine) (p : Program) :
    m.load p = (m.fresh.load p).prepend m.output m.trace :=
  load_eq_prepend rfl rfl p

/-- Whatever a machine went through, an execution ends exactly where it ends on a new machine.  It
fails in the same way, puts the same bytes and records behind those that were there, and leaves the
program. -/
theorem outcome_fresh (m : Machine) (fuel : Nat) :
    match (m.fresh.load m.program).outcome fuel with
    | .error _ => m.execute fuel = none
    | .ok shown =>
      ∃ last report, m.execute fuel = some (last, report) ∧
        report.failure = shown.report.failure ∧ last.program = m.program ∧
        last.output = m.output ++ shown.output.toArray ∧
        last.trace = m.trace ++ shown.trace.toArray := by
  cases checked : m.program.checkBrackets with
  | error error =>
    -- a program that is refused leaves both machines as they are
    have refused := execute_of_rejected checked fuel
    have refused' : (m.fresh.load m.program).execute fuel =
        some (m.fresh.load m.program, ⟨0, 0, some (.unbalanced error)⟩) :=
      execute_of_rejected (m := m.fresh.load m.program) checked fuel
    rw [outcome, refused']
    exact ⟨m, _, refused, rfl, rfl, (Array.append_empty).symm, (Array.append_empty).symm⟩
  | ok _ =>
    have same := execute_of_load (load_eq_prepend_fresh m m.program) checked fuel
    rw [outcome]
    cases ended : (m.fresh.load m.program).execute fuel with
    | none => rw [same, ended, Option.map_none]
    | some result =>
      obtain ⟨last, report⟩ := result
      rw [ended] at same
      have kept : last.program = (m.fresh.load m.program).program := program_of_execute ended
      exact ⟨_, report, same, rfl, kept, by simp [prepend], by simp [prepend]⟩

end Machine

namespace Shell

variable {fuel : Nat} {w : Workplace} {s next : Shell} {c : Command} {reply : Reply}

theorem length_of_takes? {source : LooseText} (taken : s.takes? w c = some source) :
    (source.length : Int) ≤ max s.settings.maxCodeLength s.settings.maxFileSize := by
  unfold takes? at taken
  split at taken
  · split at taken
    · cases taken
    · rename_i path _
      cases read : readProgramFile w path s.settings.maxFileSize with
      | error e =>
        rw [read] at taken
        cases taken
      | ok text =>
        rw [read] at taken
        obtain rfl := Option.some.inj taken
        have fits := length_of_readProgramFile read
        rw [LooseText.length_ofString]
        omega
  · split at taken
    · cases taken
    · rename_i fits
      cases taken
      omega
  · cases taken

/-! ## The agreement of source and program -/

/-- The source of a shell is that of its program, unless it is empty, and it is no longer than the
settings allow. -/
structure Loaded (s : Shell) : Prop where
  program_eq : s.source ≠ "" → s.machine.program = Program.ofLoose s.source
  length_le : (s.source.length : Int) ≤ max s.settings.maxCodeLength s.settings.maxFileSize

/-- A command that clears keeps the program and no source. -/
theorem source_of_answers (answered : s.Answers fuel w c reply) (kept : c ≠ .clear) :
    reply.shell.source = (s.takes? w c).getD s.source ∧
    reply.shell.machine.program =
      ((s.takes? w c).map Program.ofLoose).getD s.machine.program := by
  refine ⟨?_, program_of_answers answered⟩
  cases answered with
  | speaks _ nothing => simp [answer, nothing]
  | installs taken => simp [install, answer, taken]
  | clears => contradiction
  | _ => rfl

theorem Loaded.answers (h : s.Loaded) (answered : s.Answers fuel w c reply) :
    reply.shell.Loaded := by
  have same := settings_of_answers answered
  by_cases clears : c = .clear
  · subst clears
    cases answered with
    | speaks => exact h
    | installs taken => cases taken
    | clears =>
      refine ⟨fun loaded => absurd rfl loaded, ?_⟩
      have longest := h.length_le
      simp only [answer, LooseText.length_ofString, String.length_empty]
      omega
  · obtain ⟨source, program⟩ := source_of_answers answered clears
    constructor
    · rw [source, program]
      cases taken : s.takes? w c with
      | none => exact h.program_eq
      | some text => exact fun _ => rfl
    · rw [source, same]
      cases taken : s.takes? w c with
      | none => exact h.length_le
      | some text => exact length_of_takes? taken

/-! ## Lines and other events -/

/-- What can reach a shell: a line, with the files that there are at the time and a bound on the
steps of a program, or that its input goes on somewhere else, as it does behind every line. -/
inductive Event where
  | line (fuel : Nat) (w : Workplace) (line : LooseText)
  | input (input : Input)

/-- The shell after an event; none when a program does not end within its bound.  A line without an
answer leaves the shell as it was. -/
def after : Event → Shell → Option Shell
  | .line fuel w line, s =>
    match s.handle fuel w line with
    | .ok reply => some reply.shell
    | .error .unfinished => none
    | .error _ => some s
  | .input input, s => some { s with machine := { s.machine with input := input } }

def afterAll : List Event → Shell → Option Shell
  | [], s => some s
  | event :: rest, s => (after event s).bind (afterAll rest)

theorem afterAll_induction {P : Shell → Prop} {events : List Event}
    (reached : afterAll events s = some next)
    (keeps : ∀ event s next, after event s = some next → P s → P next) (start : P s) : P next := by
  induction events generalizing s with
  | nil =>
    cases reached
    exact start
  | cons event rest ih =>
    obtain ⟨first, happened, onward⟩ := Option.bind_eq_some_iff.mp reached
    exact ih onward (keeps event s first happened start)

/-- An event leaves the shell, its answer to a command, or the shell with another input. -/
theorem after_cases {event : Event} (happened : after event s = some next) :
    next = s ∨ (∃ fuel w c reply, s.Answers fuel w c reply ∧ next = reply.shell) ∨
      ∃ input, next = { s with machine := { s.machine with input := input } } := by
  cases event with
  | line fuel w line =>
    simp only [after] at happened
    split at happened
    · rename_i reply answered
      cases happened
      exact .inr (.inl ⟨fuel, w, _, reply, perform_answers answered, rfl⟩)
    · cases happened
    · cases happened
      exact .inl rfl
  | input input =>
    cases happened
    exact .inr (.inr ⟨input, rfl⟩)

theorem Loaded.after {event : Event} (h : s.Loaded) (happened : after event s = some next) :
    next.Loaded := by
  obtain rfl | ⟨_, _, _, reply, answered, rfl⟩ | ⟨input, rfl⟩ := after_cases happened
  · exact h
  · exact h.answers answered
  · exact ⟨h.program_eq, h.length_le⟩

theorem settings_of_after {event : Event} (happened : Shell.after event s = some next) :
    next.settings = s.settings := by
  obtain rfl | ⟨_, _, _, reply, answered, rfl⟩ | ⟨input, rfl⟩ := after_cases happened
  · rfl
  · exact settings_of_answers answered
  · rfl

theorem loaded_start {settings : Settings} (valid : settings.check = .ok ()) (machine : Machine) :
    (start settings machine).Loaded := by
  obtain ⟨_, _, positive, _⟩ := Settings.check_eq_ok_iff.mp valid
  refine ⟨fun loaded => absurd rfl loaded, ?_⟩
  simp only [start, LooseText.length_ofString, String.length_empty]
  omega

/-! ## What is shown and what is run -/

/-- A run in a shell shows what its program would show on a new machine. -/
theorem runLoaded_eq (loaded : s.source ≠ "") (fuel : Nat) :
    match (s.machine.fresh.load s.machine.program).outcome fuel with
    | .error _ => s.runLoaded fuel = .error .unfinished
    | .ok shown =>
      ∃ last, s.runLoaded fuel = .ok ⟨{ s with machine := last }, true,
          .program shown.output :: (failureLines shown.report.failure).map say⟩ ∧
        last.program = s.machine.program ∧
        last.trace = s.machine.trace ++ shown.trace.toArray := by
  have shows := s.machine.outcome_fresh fuel
  split at shows
  · exact runLoaded_of_unfinished loaded shows
  · rename_i shown _
    obtain ⟨last, report, ended, failed, kept, output, trace⟩ := shows
    refine ⟨last, ?_, kept, trace⟩
    rw [runLoaded_of_execute loaded ended, failed]
    simp [output]

/-- After any lines, whatever files and inputs there were, the source is no longer than the settings
allow, and where there is one it is the source of the loaded program.  So the counts that are shown
are the numbers of command characters in it, and a run shows what that program shows on a new
machine.  A command that takes no source keeps both, unless it clears: a source that is refused, a
file that cannot be read, a run that fails. -/
theorem loaded_of_events {settings : Settings} {machine : Machine} {events : List Event}
    (valid : settings.check = .ok ()) (reached : afterAll events (start settings machine) = some s) :
    s.settings = settings ∧
    (s.source.length : Int) ≤ max settings.maxCodeLength settings.maxFileSize ∧
    (s.source ≠ "" →
      let count := s.source.points.countP (· ∈ Program.commandChars.map .char)
      let beginning : LooseText := ⟨s.source.points.take 200⟩
      let tracing := if s.machine.tracing then "On" else "Off"
      s.machine.program = Program.ofLoose s.source ∧
      ∀ fuel w line,
        (Command.ofLine line = .show →
          s.handle fuel w line =
            .ok (s.answer [s!"Program ({count} instructions): " ++ beginning])) ∧
        (Command.ofLine line = .status →
          s.handle fuel w line =
            .ok (s.answer ["Status:", "  Program loaded: Yes", s!"  Instructions: {count}",
              s!"  Memory pointer: {s.machine.tape.pointer}", s!"  Debug mode: {tracing}"])) ∧
        (Command.ofLine line = .run →
          match (s.machine.fresh.load (Program.ofLoose s.source)).outcome fuel with
          | .error _ => s.handle fuel w line = .error .unfinished
          | .ok shown =>
            ∃ last, s.handle fuel w line = .ok ⟨{ s with machine := last }, true,
                .program shown.output :: (failureLines shown.report.failure).map say⟩ ∧
              last.trace = s.machine.trace ++ shown.trace.toArray)) ∧
    ∀ fuel w line reply, s.handle fuel w line = .ok reply →
      s.takes? w (Command.ofLine line) = none → Command.ofLine line ≠ .clear →
      reply.shell.source = s.source ∧ reply.shell.machine.program = s.machine.program := by
  have same : s.settings = settings :=
    afterAll_induction (P := fun s => s.settings = settings) reached
      (fun _ _ _ happened kept => (settings_of_after happened).trans kept) rfl
  have agrees : s.Loaded :=
    afterAll_induction reached (fun _ _ _ happened h => h.after happened)
      (loaded_start valid machine)
  refine ⟨same, same ▸ agrees.length_le, fun loaded => ?_, ?_⟩
  · intro count beginning tracing
    have program := agrees.program_eq loaded
    have there : s.source.isEmpty = false := by simpa using loaded
    have counted : s.machine.program.size = count := by rw [program, Program.size_ofLoose]
    refine ⟨program, fun fuel w line => ⟨fun shows => ?_, fun shows => ?_, fun runs => ?_⟩⟩
    · have told : s.handle fuel w line = .ok s.showSource := by
        rw [handle, shows]
        rfl
      rw [told, showSource, there, counted]
      rfl
    · have told : s.handle fuel w line = .ok s.showStatus := by
        rw [handle, shows]
        rfl
      rw [told, showStatus, there, counted]
      rfl
    · rw [handle, runs, perform_run, ← program]
      have ran := runLoaded_eq loaded fuel
      split at ran
      · exact ran
      · obtain ⟨last, replied, _, trace⟩ := ran
        exact ⟨last, replied, trace⟩
  · intro fuel w line reply answered nothing kept
    obtain ⟨source, program⟩ := source_of_answers (perform_answers answered) kept
    rw [nothing] at source program
    exact ⟨source, program⟩

/-- A program that the cap of the tape ends inside a loop, and behind it a source that is missing, a
path that is refused, a line without an answer and another input: the program is still there. -/
theorem loaded_of_events_failures :
    ∃ s, afterAll
        [.line 30 (.ofEntries []) "code +[  >+]", .line 30 (.ofEntries []) "r",
          .line 30 (.ofEntries []) "code", .line 30 (.ofEntries []) "load a..b",
          .line 30 (.ofEntries []) "load a\x00b", .input (.bytes [7])]
        (start {} (Machine.onTape (Tape.blank 1 2 (by decide) (by decide)) false (.bytes []))) =
          some s ∧
      s.source = "+[ >+]" ∧ s.machine.openLoops = [1] ∧
      s.machine.program = Program.ofLoose s.source := by
  have ran : (afterAll
        [.line 30 (.ofEntries []) "code +[  >+]", .line 30 (.ofEntries []) "r",
          .line 30 (.ofEntries []) "code", .line 30 (.ofEntries []) "load a..b",
          .line 30 (.ofEntries []) "load a\x00b", .input (.bytes [7])]
        (start {} (Machine.onTape (Tape.blank 1 2 (by decide) (by decide)) false
          (.bytes [])))).map (fun s => (s.source, s.machine.openLoops)) =
      some (.ofString "+[ >+]", [1]) := by
    decide +kernel
  obtain ⟨s, reached, seen⟩ := Option.map_eq_some_iff.mp ran
  obtain ⟨source, opened⟩ := Prod.mk.inj seen
  obtain ⟨_, _, agrees, _⟩ := loaded_of_events rfl reached
  exact ⟨s, reached, source, opened, (agrees (by simp [source])).1⟩

end Shell

end Brainfuck
