import Brainfuck.Proofs.Commands
import Brainfuck.Proofs.Sizing

/-! # What a line leaves alone

Every part of a shell is changed by a few lines only, and these are known by their words.

* `Shell.Begins`, `Loads`, `Runs`, `Switches` — the lines that can change something;
* `Machine.Untouched` — program, tape, place and counts are those that were there;
* `handle_changes` — which lines change which part; all others, and all that are refused, change
  nothing.

Each part is followed through the answers that a command can have (`Answers`).  The words come in
only at the end, where a command that changes something is traced back to a line that asks for it.
-/

namespace Brainfuck

/-- The program, the tape, the place in the program and the counts of a machine are still there.
Nothing is said about tracing, the input and what was written. -/
structure Machine.Untouched (before after : Machine) : Prop where
  program : after.program = before.program
  tape : after.tape = before.tape
  position : after.position = before.position
  openLoops : after.openLoops = before.openLoops
  steps : after.steps = before.steps
  reads : after.reads = before.reads
  writes : after.writes = before.writes

/-! ## The words behind a command -/

namespace Command

variable {word : LooseText} {args : List LooseText} {line : LooseText}

theorem ofWords_eq_load {path : LooseText} (read : ofWords word args = .load (some path)) :
    word = "load" ∧ args.head? = some path := by
  unfold ofWords at read
  split at read <;> simp_all [LooseText.toString?_eq_some_iff]

theorem ofWords_eq_code {source : LooseText} (read : ofWords word args = .code (some source)) :
    word = "code" ∧ codeSource? args = some source := by
  unfold ofWords at read
  split at read <;> simp_all [LooseText.toString?_eq_some_iff]

theorem ofWords_eq_debug {on : Bool} (read : ofWords word args = .debug (some on)) :
    (∃ name ∈ ["debug", "d"], word = ↑name) ∧ debugSwitch? args = some on := by
  unfold ofWords at read
  split at read <;> simp_all [LooseText.toString?_eq_some_iff]

theorem debugSwitch?_eq {on : Bool} (switched : debugSwitch? args = some on) :
    ∃ cs rest, args = .ofChars cs :: rest ∧
      cs.map Char.toLower = (if on then "on" else "off").toList := by
  unfold debugSwitch? at switched
  split at switched
  · cases switched
  · rename_i word rest
    have spelled : (word.chars?.map fun cs => String.ofList (cs.map Char.toLower)) =
        some (if on then "on" else "off") := by
      split at switched
      · rename_i found
        cases switched
        exact found
      · rename_i found
        cases switched
        exact found
      · cases switched
    obtain ⟨cs, read, lower⟩ := Option.map_eq_some_iff.mp spelled
    refine ⟨cs, rest, ?_, ?_⟩
    · rw [LooseText.chars?_eq_some_iff.mp read]
    · rw [← lower, String.toList_ofList]

theorem codeSource?_eq {source : LooseText} (joined : codeSource? args = some source) :
    args ≠ [] ∧ source = .spaced args := by
  unfold codeSource? at joined
  split at joined
  · cases joined
  · rename_i nonempty
    cases joined
    exact ⟨nonempty, rfl⟩

theorem words_of_ofLine {c : Command} (read : ofLine line = c) (nonblank : c ≠ .blank) :
    ∃ word args, line.words = word :: args ∧ ofWords word args = c := by
  unfold ofLine at read
  split at read
  · exact absurd read.symm nonblank
  · exact ⟨_, _, ‹_›, read⟩

end Command

namespace Shell

variable {fuel : Nat} {w : Workplace} {s : Shell} {c : Command} {reply : Reply}
  {line : LooseText}

/-- The first word of a line is one of these names. -/
def Begins (line : LooseText) (names : List String) : Prop :=
  ∃ name ∈ names, line.words.head? = some (.ofString name)

/-- A line that puts in a source: `load` and the path of a program file that can be read, with no
two dots in a row, or `code` and some words that are not too long.  What stands behind a path is not
looked at. -/
inductive Loads (w : Workplace) (s : Shell) (line : LooseText) : LooseText → Prop
  | file {path : LooseText} {rest : List LooseText} {source : String}
    (typed : line.words = .ofString "load" :: path :: rest)
    (plain : ¬ [.char '.', .char '.'] <:+: path.points)
    (read : readProgramFile w path s.settings.maxFileSize = .ok source) : Loads w s line source
  | typed {args : List LooseText} (typed : line.words = .ofString "code" :: args)
    (nonempty : args ≠ []) (fits : (LooseText.spaced args).length ≤ s.settings.maxCodeLength) :
    Loads w s line (.spaced args)

/-- A line that runs what is loaded. -/
def Runs (s : Shell) (line : LooseText) : Prop :=
  s.source ≠ "" ∧ Begins line ["run", "r"]

/-- A line that switches tracing, in letters of any case. -/
def Switches (line : LooseText) (on : Bool) : Prop :=
  ∃ name ∈ ["debug", "d"], ∃ word rest, line.words = .ofString name :: .ofChars word :: rest ∧
    word.map Char.toLower = (if on then "on" else "off").toList

theorem begins_of_ofLine (read : Command.ofLine line = c) (plain : c.names ≠ []) :
    Begins line c.names :=
  (Command.ofLine_eq_iff plain).mp read

theorem switches_of_debug {on : Bool} (read : Command.ofLine line = .debug (some on)) :
    Switches line on := by
  obtain ⟨word, args, found, read⟩ := Command.words_of_ofLine read (by simp)
  obtain ⟨⟨name, member, rfl⟩, switched⟩ := Command.ofWords_eq_debug read
  obtain ⟨second, rest, rfl, spelled⟩ := Command.debugSwitch?_eq switched
  exact ⟨name, member, second, rest, found, spelled⟩

theorem loads_of_takes? {source : LooseText}
    (taken : s.takes? w (Command.ofLine line) = some source) : s.Loads w line source := by
  unfold takes? at taken
  split at taken
  · rename_i path read
    obtain ⟨word, args, found, read⟩ := Command.words_of_ofLine read (by simp)
    obtain ⟨rfl, behind⟩ := Command.ofWords_eq_load read
    obtain ⟨rest, rfl⟩ := List.head?_eq_some_iff.mp behind
    split at taken
    · cases taken
    · rename_i plain
      rw [hasDotPair_iff] at plain
      obtain ⟨text, read, rfl⟩ := Option.map_eq_some_iff.mp taken
      exact .file found plain (eq_ok_of_toOption read)
  · rename_i text read
    obtain ⟨word, args, found, read⟩ := Command.words_of_ofLine read (by simp)
    obtain ⟨rfl, behind⟩ := Command.ofWords_eq_code read
    obtain ⟨nonempty, rfl⟩ := Command.codeSource?_eq behind
    split at taken
    · cases taken
    · rename_i fits
      cases taken
      exact .typed found nonempty (Int.not_lt.mp fits)
  · cases taken

/-! ## What the answers change -/

theorem untouched_of_answers (answered : s.Answers fuel w c reply) :
    s.machine.Untouched reply.shell.machine ∨ s.takes? w c = some reply.shell.source ∨
      (s.source ≠ "" ∧ c = .run) ∨ (c = .reset ∧ reply.shell.machine = s.machine.reset) := by
  cases answered with
  | installs taken => exact .inr (.inl taken)
  | ran loaded => exact .inr (.inr (.inl ⟨loaded, rfl⟩))
  | resets => exact .inr (.inr (.inr ⟨rfl, rfl⟩))
  | _ => exact .inl ⟨rfl, rfl, rfl, rfl, rfl, rfl, rfl⟩

/-- Neither a run nor a reset drops the program. -/
theorem program_eq_or_taken (answered : s.Answers fuel w c reply) :
    reply.shell.machine.program = s.machine.program ∨
      s.takes? w c = some reply.shell.source := by
  cases answered with
  | installs taken => exact .inr taken
  | ran _ ended => exact .inl (Machine.program_of_execute ended)
  | _ => exact .inl rfl

theorem tracing_of_answers (answered : s.Answers fuel w c reply) :
    reply.shell.machine.tracing = s.machine.tracing ∨
      c = .debug (some reply.shell.machine.tracing) := by
  cases answered with
  | ran _ ended => exact .inl (Machine.tracing_of_execute ended)
  | traces on => exact .inr rfl
  | _ => exact .inl rfl

theorem source_eq_or_taken (answered : s.Answers fuel w c reply) :
    reply.shell.source = s.source ∨ s.takes? w c = some reply.shell.source ∨
      (c = .clear ∧ reply.shell.source = "") := by
  cases answered with
  | installs taken => exact .inr (.inl taken)
  | clears => exact .inr (.inr ⟨rfl, rfl⟩)
  | _ => exact .inl rfl

/-- Only a run reads, writes or traces. -/
theorem streams_of_answers (answered : s.Answers fuel w c reply) :
    (s.source ≠ "" ∧ c = .run) ∨
      (reply.shell.machine.input = s.machine.input ∧
        reply.shell.machine.output = s.machine.output ∧
        reply.shell.machine.trace = s.machine.trace ∧ ∀ bytes, .program bytes ∉ reply.writes) := by
  cases answered with
  | ran loaded => exact .inl ⟨loaded, rfl⟩
  | _ => exact .inr ⟨rfl, rfl, rfl, by simp [answer, install, setTracing, say]⟩

theorem shell_of_answers (answered : s.Answers fuel w c reply) :
    reply.shell = s ∨ (∃ source, s.takes? w c = some source) ∨ (s.source ≠ "" ∧ c = .run) ∨
      c = .reset ∨ c = .clear ∨ ∃ on, c = .debug (some on) := by
  cases answered with
  | installs taken => exact .inr (.inl ⟨_, taken⟩)
  | ran loaded => exact .inr (.inr (.inl ⟨loaded, rfl⟩))
  | resets => exact .inr (.inr (.inr (.inl rfl)))
  | clears => exact .inr (.inr (.inr (.inr (.inl rfl))))
  | traces on => exact .inr (.inr (.inr (.inr (.inr ⟨on, rfl⟩))))
  | _ => exact .inl rfl

/-- Whatever the state of a shell, the files and the line: the settings stay.  The program, tape,
place and counts of the machine are changed only by a line that puts in a source, by one that runs
what is loaded and by a reset, and the program by the first of these alone.  Tracing is changed only
by a switch, the source by a line that puts one in and by one that clears it.  Input is taken, and
output and trace are written, by a run alone.  Every other line leaves the whole shell as it was,
blank or unknown or one that only shows something, and so does every line that is refused. -/
theorem handle_changes (answered : s.handle fuel w line = .ok reply) :
    let next := reply.shell
    next.settings = s.settings ∧
    (s.machine.Untouched next.machine ∨ s.Loads w line next.source ∨ s.Runs line ∨
      (Begins line ["reset"] ∧ next.machine = s.machine.reset)) ∧
    (next.machine.program = s.machine.program ∨ s.Loads w line next.source) ∧
    (next.machine.tracing = s.machine.tracing ∨ Switches line next.machine.tracing) ∧
    (next.source = s.source ∨ s.Loads w line next.source ∨
      (Begins line ["clear", "c"] ∧ next.source = "")) ∧
    (s.Runs line ∨
      (next.machine.input = s.machine.input ∧ next.machine.output = s.machine.output ∧
        next.machine.trace = s.machine.trace ∧ ∀ bytes, .program bytes ∉ reply.writes)) ∧
    (next = s ∨ (∃ source, s.Loads w line source) ∨ s.Runs line ∨
      Begins line ["reset", "clear", "c"] ∨ ∃ on, Switches line on) ∧
    ∀ text, s.Refuses w (Command.ofLine line) text → next = s := by
  intro next
  have answers : s.Answers fuel w (Command.ofLine line) reply := perform_answers answered
  have runs : s.source ≠ "" ∧ Command.ofLine line = .run → s.Runs line :=
    fun run => ⟨run.1, begins_of_ofLine run.2 (by decide)⟩
  have resets (read : Command.ofLine line = .reset) : Begins line ["reset"] :=
    begins_of_ofLine read (by decide)
  have clears (read : Command.ofLine line = .clear) : Begins line ["clear", "c"] :=
    begins_of_ofLine read (by decide)
  refine ⟨settings_of_answers answers, ?_, ?_, ?_, ?_, ?_, ?_, fun text refused => ?_⟩
  · exact (untouched_of_answers answers).imp_right
      (Or.imp loads_of_takes? (Or.imp runs (And.imp_left resets)))
  · exact (program_eq_or_taken answers).imp_right loads_of_takes?
  · exact (tracing_of_answers answers).imp_right switches_of_debug
  · exact (source_eq_or_taken answers).imp_right
      (Or.imp loads_of_takes? (And.imp_left clears))
  · exact (streams_of_answers answers).imp_left runs
  · obtain same | ⟨source, taken⟩ | run | reset | clear | ⟨on, switch⟩ := shell_of_answers answers
    · exact .inl same
    · exact .inr (.inl ⟨source, loads_of_takes? taken⟩)
    · exact .inr (.inr (.inl (runs run)))
    · obtain ⟨name, member, first⟩ := resets reset
      exact .inr (.inr (.inr (.inl ⟨name, by simp_all, first⟩)))
    · obtain ⟨name, member, first⟩ := clears clear
      exact .inr (.inr (.inr (.inl ⟨name, List.mem_cons_of_mem _ member, first⟩)))
    · exact .inr (.inr (.inr (.inr ⟨on, switches_of_debug switch⟩)))
  · rw [handle, perform_of_refuses refused] at answered
    cases answered
    rfl

/-- A program that failed inside a loop stays there, with its tape, when a path with two dots in it
is refused. -/
theorem handle_changes_dotPair :
    ∃ (s : Shell) (reply : Reply), s.source = "+[>+]" ∧ s.machine.openLoops = [1] ∧
      s.machine.tape.pointer = 1 ∧
      s.handle 9 (.ofEntries []) "load a..b\n" = .ok reply ∧ reply.shell = s := by
  let loaded := (Machine.onTape (Tape.blank 1 2 (by decide) (by decide)) false (.bytes [])).load
    (Program.ofText "+[>+]")
  have ran : ((loaded.execute 20).map fun r => (r.1.openLoops, r.1.tape.pointer)) =
      some ([1], 1) := by
    decide +kernel
  obtain ⟨⟨last, report⟩, _, seen⟩ := Option.map_eq_some_iff.mp ran
  obtain ⟨opened, place⟩ := Prod.mk.inj seen
  have command : Command.ofLine "load a..b\n" = .load (some "a..b") := by decide +kernel
  let s : Shell := ⟨{}, last, "+[>+]"⟩
  have refused : s.Refuses (.ofEntries []) (Command.ofLine "load a..b\n")
      "Error: Invalid filename" := by
    rw [command]
    exact .dotPair ⟨[.char 'a'], [.char 'b'], by decide +kernel⟩
  have answered : s.handle 9 (.ofEntries []) "load a..b\n" =
      .ok (s.answer ["Error: Invalid filename"]) :=
    perform_of_refuses refused
  obtain ⟨_, _, _, _, _, _, _, kept⟩ := handle_changes answered
  exact ⟨s, _, rfl, opened, place, answered, kept _ refused⟩

end Shell

end Brainfuck
