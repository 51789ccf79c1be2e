import Brainfuck.Proofs.Loaded

/-! # What is left of a cleared program

To clear forgets the source and leaves the program in the machine.  No command looks at that program
any more but the one that shows the status: it goes on counting its instructions.

* `Shell.Twin` — shells that have everything a command looks at in common, but for the program of a
  machine whose source is empty;
* `transcript` — what a shell writes and traces event by event;
* `Twin.after`, `transcript_ne_iff` — twins stay twins, and only a status tells them apart, until a
  source is taken;
* `transcript_of_cleared` — a cleared shell beside one that has never had a program.
-/

namespace Brainfuck

namespace Machine

variable {m m' last last' : Machine} {fuel : Nat} {report report' : Report}

/-- Two machines with the same program and the same tape, tracing and input have these in common
after an execution as well. -/
theorem common_of_execute (program : m.program = m'.program) (tape : m.tape = m'.tape)
    (tracing : m.tracing = m'.tracing) (input : m.input = m'.input)
    (ended : m.execute fuel = some (last, report))
    (ended' : m'.execute fuel = some (last', report')) :
    last.tape = last'.tape ∧ last.tracing = last'.tracing ∧ last.input = last'.input := by
  cases checked : m.program.checkBrackets with
  | error error =>
    rw [execute_of_rejected checked] at ended
    rw [execute_of_rejected (program ▸ checked)] at ended'
    cases ended
    cases ended'
    exact ⟨tape, tracing, input⟩
  | ok _ =>
    -- both go as on the same new machine
    have same : m'.fresh.load m'.program = m.fresh.load m.program := by
      simp only [fresh, program, tape, tracing, input]
    rw [execute_of_load (load_eq_prepend_fresh m m.program) checked] at ended
    rw [execute_of_load (load_eq_prepend_fresh m' m'.program) (program ▸ checked), same] at ended'
    obtain ⟨⟨next, _⟩, ran, left⟩ := Option.map_eq_some_iff.mp ended
    rw [ran] at ended'
    cases left
    cases ended'
    exact ⟨rfl, rfl, rfl⟩

end Machine

namespace Shell

variable {fuel : Nat} {w : Workplace} {s s' next next' : Shell} {c : Command} {reply : Reply}

/-! ## Twins -/

/-- The shells have everything in common that a command looks at, but for the program of a machine
whose source is empty. -/
structure Twin (s s' : Shell) : Prop where
  settings_eq : s.settings = s'.settings
  source_eq : s.source = s'.source
  tape_eq : s.machine.tape = s'.machine.tape
  tracing_eq : s.machine.tracing = s'.machine.tracing
  input_eq : s.machine.input = s'.machine.input
  program_eq : s.source ≠ "" → s.machine.program = s'.machine.program

/-- Twins do the same about a command: neither has an answer, or both write the same, put the same
records behind their traces and are left as twins. -/
inductive SameAnswer (s s' : Shell) : Except Interruption Reply → Except Interruption Reply → Prop
  | silent (cause : Interruption) : SameAnswer s s' (.error cause) (.error cause)
  | answers {next next' : Shell} (keep : Bool) (writes : List Write) (records : Array TraceRecord)
    (twin : next.Twin next') (traced : next.machine.trace = s.machine.trace ++ records)
    (traced' : next'.machine.trace = s'.machine.trace ++ records) :
    SameAnswer s s' (.ok ⟨next, keep, writes⟩) (.ok ⟨next', keep, writes⟩)

theorem SameAnswer.of_untraced (twin : next.Twin next')
    (kept : next.machine.trace = s.machine.trace)
    (kept' : next'.machine.trace = s'.machine.trace) (keep : Bool) (writes : List Write) :
    SameAnswer s s' (.ok ⟨next, keep, writes⟩) (.ok ⟨next', keep, writes⟩) :=
  .answers keep writes #[] twin (by simp [kept]) (by simp [kept'])

namespace Twin

theorem speaks (h : s.Twin s') (lines : List LooseText) :
    SameAnswer s s' (.ok (s.answer lines)) (.ok (s'.answer lines)) := by
  refine .of_untraced h ?_ ?_ true _ <;> rfl

theorem installs (h : s.Twin s') (source fromWhere : LooseText) :
    SameAnswer s s' (.ok (s.install source fromWhere)) (.ok (s'.install source fromWhere)) := by
  have twin : (s.install source fromWhere).shell.Twin (s'.install source fromWhere).shell :=
    ⟨h.settings_eq, rfl, congrArg Tape.reset h.tape_eq, h.tracing_eq, h.input_eq, fun _ => rfl⟩
  refine .of_untraced twin ?_ ?_ true _ <;> rfl

theorem runLoaded (h : s.Twin s') (fuel : Nat) :
    SameAnswer s s' (s.runLoaded fuel) (s'.runLoaded fuel) := by
  by_cases empty : s.source = ""
  · have empty' : s'.source = "" := h.source_eq ▸ empty
    simp only [Shell.runLoaded, empty, empty']
    exact h.speaks _
  · have loaded' : s'.source ≠ "" := h.source_eq ▸ empty
    have program := h.program_eq empty
    have same : s'.machine.fresh.load s'.machine.program =
        s.machine.fresh.load s.machine.program := by
      simp only [Machine.fresh, program, h.tape_eq, h.tracing_eq, h.input_eq]
    have shows := s.machine.outcome_fresh fuel
    have shows' := s'.machine.outcome_fresh fuel
    rw [same] at shows'
    cases ran : (s.machine.fresh.load s.machine.program).outcome fuel with
    | error _ =>
      rw [ran] at shows shows'
      rw [runLoaded_of_unfinished empty shows, runLoaded_of_unfinished loaded' shows']
      exact .silent .unfinished
    | ok shown =>
      rw [ran] at shows shows'
      obtain ⟨last, report, ended, failed, kept, output, traced⟩ := shows
      obtain ⟨last', report', ended', failed', kept', output', traced'⟩ := shows'
      obtain ⟨tape, tracing, input⟩ := Machine.common_of_execute program h.tape_eq h.tracing_eq
        h.input_eq ended ended'
      have twin : Twin { s with machine := last } { s' with machine := last' } :=
        ⟨h.settings_eq, h.source_eq, tape, tracing, input, fun _ => by
          rw [kept, kept', program]⟩
      rw [runLoaded_of_execute empty ended, runLoaded_of_execute loaded' ended', failed, failed',
        output, output']
      simpa using SameAnswer.answers true _ _ twin traced traced'

theorem reset (h : s.Twin s') :
    Twin { s with machine := s.machine.reset } { s' with machine := s'.machine.reset } :=
  ⟨h.settings_eq, h.source_eq, congrArg Tape.reset h.tape_eq, h.tracing_eq, h.input_eq,
    h.program_eq⟩

theorem setTracing (h : s.Twin s') (on : Bool) :
    Twin { s with machine := { s.machine with tracing := on } }
      { s' with machine := { s'.machine with tracing := on } } :=
  ⟨h.settings_eq, h.source_eq, h.tape_eq, rfl, h.input_eq, h.program_eq⟩

theorem setInput (h : s.Twin s') (input : Input) :
    Twin { s with machine := { s.machine with input := input } }
      { s' with machine := { s'.machine with input := input } } :=
  ⟨h.settings_eq, h.source_eq, h.tape_eq, h.tracing_eq, rfl, h.program_eq⟩

/-- A program whose source is forgotten need not be the same. -/
theorem clear (h : s.Twin s') : Twin { s with source := "" } { s' with source := "" } :=
  ⟨h.settings_eq, rfl, h.tape_eq, h.tracing_eq, h.input_eq, fun loaded => absurd rfl loaded⟩

/-- Twins do the same about a command, unless it asks for the status where their machines hold
different numbers of instructions. -/
theorem perform (h : s.Twin s') (fuel : Nat) (w : Workplace)
    (told : c = .status → s.machine.program.size = s'.machine.program.size) :
    SameAnswer s s' (s.perform fuel w c) (s'.perform fuel w c) := by
  cases c with
  | load path =>
    cases path with
    | none => exact h.speaks _
    | some path =>
      rw [perform_load, perform_load, loadFile, loadFile, ← h.settings_eq]
      split
      · exact h.speaks _
      · cases readProgramFile w path s.settings.maxFileSize with
        | ok source => exact h.installs source (" from " ++ path)
        | error e =>
          cases e with
          | badPath fault => exact .silent (.badPath fault)
          | _ => exact h.speaks _
  | code source =>
    cases source with
    | none => exact h.speaks ["Usage: code <program>"]
    | some source =>
      change SameAnswer s s' (.ok (s.loadCode source)) (.ok (s'.loadCode source))
      rw [loadCode, loadCode, ← h.settings_eq]
      split
      · exact h.speaks _
      · exact h.installs source _
  | run => exact h.runLoaded fuel
  | help =>
    rw [perform_help, perform_help, ← h.settings_eq]
    cases Numeral.write? s.settings.maxCells with
    | none => exact .silent .numeralTooLong
    | some cells => exact h.speaks _
  | reset => refine .of_untraced h.reset ?_ ?_ true _ <;> rfl
  | dump request =>
    cases request with
    | none => exact h.speaks ["Usage: dump [start] [count]"]
    | some request =>
      change SameAnswer s s' (.ok (s.showTape (some request))) (.ok (s'.showTape (some request)))
      simp only [showTape, ← h.settings_eq, ← h.tape_eq]
      split <;> exact h.speaks _
  | debug on =>
    cases on with
    | none => exact h.speaks ["Usage: debug [on|off]"]
    | some on => refine .of_untraced (h.setTracing on) ?_ ?_ true _ <;> rfl
  | «show» =>
    change SameAnswer s s' (.ok s.showSource) (.ok s'.showSource)
    simp only [showSource, ← h.source_eq]
    split
    · exact h.speaks _
    · rename_i loaded
      rw [← h.program_eq (by simpa using loaded)]
      exact h.speaks _
  | clear => refine .of_untraced h.clear ?_ ?_ true _ <;> rfl
  | status =>
    change SameAnswer s s' (.ok s.showStatus) (.ok s'.showStatus)
    simp only [showStatus, ← h.source_eq, ← h.tracing_eq, ← h.tape_eq, told rfl]
    exact h.speaks _
  | leave => exact .of_untraced h rfl rfl false _
  | _ => exact h.speaks _

end Twin

/-! ## What is shown -/

/-- The command of a line. -/
def Event.command? : Event → Option Command
  | .line _ _ typed => some (Command.ofLine typed)
  | .input _ => none

/-- The source that an event puts into a shell. -/
def Event.takes? (s : Shell) : Event → Option LooseText
  | .line _ w typed => s.takes? w (Command.ofLine typed)
  | .input _ => none

/-- What there is to see of an answer: whether the shell goes on, what it writes and the records
that it puts behind the trace. -/
structure Sight where
  keep : Bool
  writes : List Write
  records : List TraceRecord

def sight (s : Shell) (reply : Reply) : Sight where
  keep := reply.keep
  writes := reply.writes
  records := reply.shell.machine.trace.toList.drop s.machine.trace.size

/-- What there is to see of an event, or why there is nothing. -/
def shows (s : Shell) : Event → Except Interruption Sight
  | .line fuel w line => (s.handle fuel w line).map s.sight
  | .input _ => .ok ⟨true, [], []⟩

/-- What there is to see of a sequence of events, one after the other.  A program that does not end
within its bound is the last to be seen. -/
def transcript : List Event → Shell → List (Except Interruption Sight)
  | [], _ => []
  | event :: rest, s => s.shows event :: (after event s).elim [] (transcript rest)

theorem takes?_congr (same : s.settings = s'.settings) (event : Event) :
    event.takes? s = event.takes? s' := by
  cases event with
  | input => rfl
  | line fuel w line => simp only [Event.takes?, Shell.takes?, same]

theorem program_of_after {event : Event} (happened : after event s = some next) :
    next.machine.program = ((event.takes? s).map Program.ofLoose).getD s.machine.program := by
  cases event with
  | input =>
    cases happened
    rfl
  | line fuel w line =>
    simp only [after] at happened
    split at happened
    · rename_i answered
      cases happened
      exact program_of_answers (perform_answers answered)
    · cases happened
    · rename_i cause ended silent
      cases happened
      -- a line without an answer takes nothing
      have nothing : s.takes? w (Command.ofLine line) = none := by
        obtain ⟨runs, _⟩ | ⟨helps, _⟩ | ⟨path, fault, loads, _, bad, _⟩ := perform_eq_error silent
        · rw [runs]
          rfl
        · rw [helps]
          rfl
        · rw [loads]
          simp [Shell.takes?, readProgramFile_eq_badPath_iff.mpr bad, Except.toOption]
      rw [Event.takes?, nothing]
      rfl

theorem instructions_inj {n k : Nat}
    (same : say s!"  Instructions: {n}" = say s!"  Instructions: {k}") : n = k := by
  have digits : n.repr.toList = k.repr.toList := by
    have repr : n.repr = k.repr := by simpa [say] using same
    rw [repr]
  rw [Nat.toList_repr, Nat.toList_repr] at digits
  calc n = Nat.ofDigitChars 10 (Nat.toDigits 10 n) 0 := by simp
    _ = Nat.ofDigitChars 10 (Nat.toDigits 10 k) 0 := by rw [digits]
    _ = k := by simp

/-! ## Two transcripts -/

theorem SameAnswer.map_sight {x x' : Except Interruption Reply} (same : SameAnswer s s' x x') :
    x.map s.sight = x'.map s'.sight := by
  cases same with
  | silent cause => rfl
  | answers keep writes records twin traced traced' => simp [Except.map, sight, traced, traced']

namespace Twin

/-- The only event that shows a difference asks for the status. -/
theorem shows_ne_iff (h : s.Twin s') (event : Event) :
    s.shows event ≠ s'.shows event ↔
      event.command? = some .status ∧ s.machine.program.size ≠ s'.machine.program.size := by
  cases event with
  | input => simp [shows, Event.command?]
  | line fuel w line =>
    simp only [Event.command?, Option.some.injEq]
    by_cases told : Command.ofLine line = .status →
        s.machine.program.size = s'.machine.program.size
    · have same := (h.perform fuel w told).map_sight
      exact iff_of_false (fun differ => differ same) fun ⟨asks, sizes⟩ => sizes (told asks)
    · obtain ⟨asks, sizes⟩ := Classical.not_imp.mp told
      refine iff_of_true (fun same => ?_) ⟨asks, sizes⟩
      -- the lines of the status are the same but for the one that counts
      simp only [shows, handle, asks] at same
      have same := congrArg (fun x => x.toOption.map fun sight => sight.writes[2]?) same
      exact sizes (instructions_inj (Option.some.inj (Option.some.inj same)))

/-- Twins stay twins, or a program does not end in either. -/
theorem after (h : s.Twin s') (event : Event) :
    (s.source ≠ "" ∧ Shell.after event s = none ∧ Shell.after event s' = none) ∨
    ∃ next next', Shell.after event s = some next ∧ Shell.after event s' = some next' ∧
      next.Twin next' := by
  cases event with
  | input input => exact .inr ⟨_, _, rfl, rfl, h.setInput input⟩
  | line fuel w line =>
    by_cases asks : Command.ofLine line = .status
    · have stays : ∀ s : Shell, Shell.after (.line fuel w line) s = some s := by
        intro s
        rw [Shell.after, handle, asks]
        rfl
      exact .inr ⟨s, s', stays s, stays s', h⟩
    · simp only [Shell.after, handle]
      have same := h.perform fuel w fun asks' => absurd asks' asks
      generalize answered : s.perform fuel w (Command.ofLine line) = x at same
      generalize s'.perform fuel w (Command.ofLine line) = x' at same
      cases same with
      | answers keep writes records twin => exact .inr ⟨_, _, rfl, rfl, twin⟩
      | silent cause =>
        cases cause with
        | unfinished =>
          obtain ⟨_, loaded, _⟩ | ⟨_, _, other⟩ | ⟨_, _, _, _, _, other⟩ :=
            perform_eq_error answered
          · exact .inl ⟨loaded, rfl, rfl⟩
          · cases other
          · cases other
        | _ => exact .inr ⟨s, s', rfl, rfl, h⟩

theorem length_transcript (h : s.Twin s') (events : List Event) :
    (transcript events s).length = (transcript events s').length := by
  induction events generalizing s s' with
  | nil => rfl
  | cons event rest ih =>
    obtain ⟨_, ends, ends'⟩ | ⟨next, next', happened, happened', twin⟩ := h.after event
    · simp [transcript, ends, ends']
    · simp [transcript, happened, happened', ih twin]

/-- Two transcripts differ where the status is asked for and the machines hold different numbers of
instructions, as long as no source has been taken. -/
theorem transcript_ne_iff (h : s.Twin s') (events : List Event) (k : Nat) :
    (transcript events s)[k]? ≠ (transcript events s')[k]? ↔
      s.machine.program.size ≠ s'.machine.program.size ∧
      (∃ event, events[k]? = some event ∧ event.command? = some .status) ∧
      ∀ earlier ∈ events.take k, earlier.takes? s = none := by
  induction events generalizing s s' k with
  | nil => simp [transcript]
  | cons event rest ih =>
    cases k with
    | zero => simp [transcript, h.shows_ne_iff event, and_comm]
    | succ k =>
      obtain ⟨loaded, ends, ends'⟩ | ⟨next, next', happened, happened', twin⟩ := h.after event
      · simp [transcript, ends, ends', h.program_eq loaded]
      · simp only [transcript, happened, happened', Option.elim_some, List.getElem?_cons_succ,
          List.take_succ_cons, List.forall_mem_cons]
        rw [ih twin, program_of_after happened, program_of_after happened',
          ← takes?_congr h.settings_eq]
        have settings := settings_of_after happened
        cases taken : event.takes? s with
        | none => simp [takes?_congr settings]
        | some source => simp

end Twin

/-! ## A cleared shell -/

/-- The second shell holds no program at all and is as the first one in everything else that a
command looks at. -/
structure Bare (s bare : Shell) : Prop where
  settings_eq : s.settings = bare.settings
  tape_eq : s.machine.tape = bare.machine.tape
  tracing_eq : s.machine.tracing = bare.machine.tracing
  input_eq : s.machine.input = bare.machine.input
  source_eq : bare.source = ""
  program_eq : bare.machine.program = #[]

/-- A shell that is cleared, whatever it went through before, shows the same as one that holds no
program and is otherwise as it is, event by event, whatever lines and inputs there are: the same
texts, the same bytes of programs, the same records.  There is one exception.  Where it held a
program with an instruction, it shows something else whenever it is asked for the status before the
next source is taken. -/
theorem transcript_of_cleared {bare : Shell} {line : LooseText}
    (clears : Command.ofLine line = .clear) (same : s.Bare bare) (fuel : Nat) (w : Workplace)
    (events : List Event) :
    ∃ reply, s.handle fuel w line = .ok reply ∧ reply.writes = [say "Program cleared"] ∧
      reply.shell.source = "" ∧
      (transcript events reply.shell).length = (transcript events bare).length ∧
      ∀ k, (transcript events reply.shell)[k]? ≠ (transcript events bare)[k]? ↔
        s.machine.program ≠ #[] ∧
        (∃ event, events[k]? = some event ∧ event.command? = some .status) ∧
        ∀ earlier ∈ events.take k, earlier.takes? s = none := by
  have twin : Twin { s with source := "" } bare :=
    ⟨same.settings_eq, same.source_eq.symm, same.tape_eq, same.tracing_eq, same.input_eq,
      fun loaded => absurd rfl loaded⟩
  refine ⟨answer { s with source := "" } ["Program cleared"], ?_, rfl, rfl,
    twin.length_transcript events, fun k => ?_⟩
  · rw [handle, clears]
    rfl
  · refine (twin.transcript_ne_iff events k).trans ?_
    simp only [same.program_eq, Array.size_empty, ne_eq, Array.size_eq_zero_iff]
    rfl

/-- The status of a cleared shell shows something else than that of a shell that never had a
program.  Behind the next source it shows the same. -/
theorem transcript_of_cleared_nextSource :
    let w : Workplace := .ofEntries []
    let bare := start {} (Machine.onTape (Tape.blank 1 1 (by decide) (by decide)) false (.bytes []))
    let events : List Event :=
      [.line 9 w "run", .line 9 w "status", .line 9 w "code .", .line 9 w "status"]
    ∃ s reply, afterAll [.line 9 w "code +-"] bare = some s ∧ s.Bare bare ∧
      s.handle 9 w "clear" = .ok reply ∧
      (transcript events reply.shell)[1]? ≠ (transcript events bare)[1]? ∧
      (transcript events reply.shell)[3]? = (transcript events bare)[3]? := by
  intro w bare events
  obtain ⟨s, loaded, same, program⟩ : ∃ s, afterAll [.line 9 w "code +-"] bare = some s ∧
      s.Bare bare ∧ s.machine.program = #[.increment, .decrement] :=
    ⟨_, rfl, ⟨rfl, rfl, rfl, rfl, rfl, rfl⟩, rfl⟩
  obtain ⟨reply, answered, _, _, _, differ⟩ :=
    @transcript_of_cleared s bare "clear" rfl same 9 w events
  refine ⟨s, reply, loaded, same, answered, ?_, ?_⟩
  · refine (differ 1).mpr ⟨by simp [program], ⟨_, rfl, rfl⟩, ?_⟩
    intro earlier member
    obtain rfl := List.mem_singleton.mp member
    rfl
  · by_cases equal : (transcript events reply.shell)[3]? = (transcript events bare)[3]?
    · exact equal
    · -- the third line takes a source
      obtain ⟨_, _, untaken⟩ := (differ 3).mp equal
      have taken : (Event.line 9 w "code .").takes? s = some "." := by
        rw [takes?_congr same.settings_eq]
        rfl
      rw [untaken _ (by simp [events])] at taken
      cases taken

/-- A program of two instructions is loaded and cleared: the status says that there is none, and
counts two. -/
theorem status_counts_cleared_program :
    let w : Workplace := .ofEntries []
    let bare := start {} (Machine.onTape (Tape.blank 1 1 (by decide) (by decide)) false (.bytes []))
    let status (count : String) : List Write := [say "Status:", say "  Program loaded: No",
      say ("  Instructions: " ++ count), say "  Memory pointer: 0", say "  Debug mode: Off"]
    ∃ s reply, afterAll [.line 9 w "code +>"] bare = some s ∧ s.source ≠ "" ∧ s.Bare bare ∧
      s.handle 9 w "clear" = .ok reply ∧
      transcript [.line 9 w "status"] reply.shell = [.ok ⟨true, status "2", []⟩] ∧
      transcript [.line 9 w "status"] bare = [.ok ⟨true, status "0", []⟩] := by
  refine ⟨_, _, rfl, by decide +kernel, ⟨rfl, rfl, rfl, rfl, rfl, rfl⟩, rfl, ?_, ?_⟩
  · rfl
  · rfl

end Shell

end Brainfuck
