import Brainfuck.Machine.Source
import Brainfuck.Settings.Coercion
import Brainfuck.Tape.Dump

/-! # The shell

Command lines that work on one machine: they load a program, run it, show it and the tape.

* `Command.ofLine` — the command that a line stands for;
* `Shell.perform` — carries out a command;
* `Shell.handle` — the two together.

A line is a loose text, and so is all that the shell says of it: a word, a path or a source may
have halves of surrogate pairs in it.  What the shell says goes to a stream that takes any text.

A command answers with what it writes, in order, text of the shell and bytes of the program
apart.  A command that is refused says so and changes nothing.
-/

namespace Brainfuck

/-- The range that a dump is asked for; a missing count is left to the settings. -/
structure DumpRequest where
  start : Int
  count : Option Int
  deriving DecidableEq, Repr

inductive Command where
  | blank
  | leave
  | help
  | load (path : Option LooseText)
  | code (source : Option LooseText)
  | run
  | reset
  /-- `none` when the numbers cannot be read. -/
  | dump (request : Option DumpRequest)
  /-- `none` when the word is neither on nor off. -/
  | debug (on : Option Bool)
  | «show»
  | clear
  | status
  | unknown (word : LooseText)
  deriving DecidableEq, Repr

namespace Command

/-- The range of a dump command, from the words behind it. -/
def dumpRequest? : List LooseText → Option DumpRequest
  | [] => some ⟨0, none⟩
  | [start] => (readInteger? start).map fun s => ⟨s, none⟩
  | start :: count :: _ => do
    let s ← readInteger? start
    let c ← readInteger? count
    return ⟨s, some c⟩

/-- The word behind a debug command. -/
def debugSwitch? : List LooseText → Option Bool
  | [] => none
  | word :: _ =>
    match word.chars?.map fun cs => String.ofList (cs.map Char.toLower) with
    | some "on" => some true
    | some "off" => some false
    | _ => none

/-- The words behind a code command, with one space between them. -/
def codeSource? : List LooseText → Option LooseText
  | [] => none
  | args => some (.spaced args)

/-- The command of a first word and the words behind it. -/
def ofWords (word : LooseText) (args : List LooseText) : Command :=
  match word.toString? with
  | some "exit" | some "quit" | some "q" => leave
  | some "help" | some "h" => help
  | some "load" => load args.head?
  | some "code" => code (codeSource? args)
  | some "run" | some "r" => run
  | some "reset" => reset
  | some "dump" => dump (dumpRequest? args)
  | some "debug" | some "d" => debug (debugSwitch? args)
  | some "show" | some "s" => «show»
  | some "clear" | some "c" => clear
  | some "status" => status
  | _ => unknown word

def ofLine (line : LooseText) : Command :=
  match line.words with
  | [] => blank
  | word :: args => ofWords word args

end Command

/-- A machine with the source that was loaded last. -/
structure Shell where
  settings : Settings
  machine : Machine
  /-- The source of the loaded program; empty when there is none. -/
  source : LooseText

/-- A piece of what a shell writes. -/
inductive Write where
  | text (s : LooseText)
  | program (bytes : List UInt8)
  deriving DecidableEq, Repr

/-- What keeps a command from being answered. -/
inductive Interruption where
  /-- The system cannot be given a path. -/
  | badPath (fault : PathFault)
  /-- A number is too long to be written. -/
  | numeralTooLong
  /-- The prompt holds half of a surrogate pair, for which there are no bytes. -/
  | unwritablePrompt
  /-- A program did not end within the given number of steps. -/
  | unfinished
  deriving DecidableEq, Repr

structure Reply where
  shell : Shell
  /-- Whether the shell goes on. -/
  keep : Bool
  writes : List Write

namespace Shell

def start (settings : Settings) (machine : Machine) : Shell :=
  ⟨settings, machine, ""⟩

/-- A line of the shell. -/
def say (text : LooseText) : Write :=
  .text (text ++ "\n")

/-- How many characters of a source are shown. -/
def showLimit : Nat := 200

/-- The help text, up to the cap of the tape. -/
def helpText : String :=
  "TRBBFI - Brainfuck Interpreter Commands:\n" ++
  "  load <file.bf>     - Load brainfuck program from file\n" ++
  "  code <program>     - Load brainfuck program from command line\n" ++
  "  run (or r)         - Execute loaded brainfuck program\n" ++
  "  reset              - Reset interpreter state (clear memory)\n" ++
  "  dump [start] [cnt] - Show memory contents\n" ++
  "  debug [on|off]     - Toggle debug mode (shows step-by-step)\n" ++
  "  show (or s)        - Show loaded brainfuck program\n" ++
  "  clear (or c)       - Clear loaded program\n" ++
  "  status             - Show interpreter status\n" ++
  "  help (or h)        - Show this help\n" ++
  "  exit/quit/q        - Exit TRBBFI\n" ++
  "\n" ++
  "Tips:\n" ++
  "  - Debug output goes to stderr\n" ++
  "  - Files must contain valid Brainfuck code (+-<>[].,)\n" ++
  "  - Memory is limited to "

/-- An answer that only says something. -/
def answer (s : Shell) (lines : List LooseText) : Reply :=
  ⟨s, true, lines.map say⟩

/-- Loads a source and says how many instructions it has. -/
def install (s : Shell) (source fromWhere : LooseText) : Reply :=
  let machine := s.machine.load (Program.ofLoose source)
  answer { s with machine := machine, source := source }
    [s!"Loaded {machine.program.size} instructions" ++ fromWhere]

/-- Whether two dots stand next to each other. -/
def hasDotPair : List CodePoint → Bool
  | .char '.' :: .char '.' :: _ => true
  | _ :: rest => hasDotPair rest
  | [] => false

/-- Loads a program file; a path with two dots in a row is refused. -/
def loadFile (w : Workplace) (s : Shell) (path : LooseText) : Except Interruption Reply :=
  if hasDotPair path.points then .ok (s.answer ["Error: Invalid filename"])
  else
    match readProgramFile w path s.settings.maxFileSize with
    | .error (.badPath fault) => .error (.badPath fault)
    | .error e => .ok (s.answer ["Error: " ++ e.message])
    | .ok source => .ok (s.install source (" from " ++ path))

/-- Loads a typed source, if it is not too long. -/
def loadCode (s : Shell) (source : LooseText) : Reply :=
  if s.settings.maxCodeLength < source.length then s.answer ["Error: Program too long"]
  else s.install source ""

/-- Runs the loaded program from a blank tape. -/
def runLoaded (fuel : Nat) (s : Shell) : Except Interruption Reply :=
  if s.source.isEmpty then .ok (s.answer ["No program loaded."])
  else
    let written := s.machine.output.size
    match s.machine.execute fuel with
    | none => .error .unfinished
    | some (machine, report) =>
      let output := (machine.output.extract written machine.output.size).toList
      let lines : List LooseText :=
        match report.failure with
        | none => []
        | some f => ["", s!"Error: {f.message}", "Program failed."]
      .ok ⟨{ s with machine := machine }, true, .program output :: lines.map say⟩

def showTape (s : Shell) : Option DumpRequest → Reply
  | none => s.answer ["Usage: dump [start] [count]"]
  | some request =>
    let count := request.count.getD s.settings.dumpCount
    if request.start < 0 ∨ count < 0 then s.answer ["Usage: dump [start] [count]"]
    else s.answer [s.machine.tape.dump request.start count]

def setTracing (s : Shell) : Option Bool → Reply
  | none => s.answer ["Usage: debug [on|off]"]
  | some on =>
    answer { s with machine := { s.machine with tracing := on } }
      [if on then "Debug mode on" else "Debug mode off"]

/-- Shows the start of the loaded source. -/
def showSource (s : Shell) : Reply :=
  if s.source.isEmpty then s.answer ["No program loaded"]
  else
    s.answer [s!"Program ({s.machine.program.size} instructions): " ++ s.source.take showLimit]

/-- Shows what is loaded and where the pointer is. -/
def showStatus (s : Shell) : Reply :=
  let loaded := if s.source.isEmpty then "No" else "Yes"
  let tracing := if s.machine.tracing then "On" else "Off"
  s.answer ["Status:", s!"  Program loaded: {loaded}",
    s!"  Instructions: {s.machine.program.size}", s!"  Memory pointer: {s.machine.tape.pointer}",
    s!"  Debug mode: {tracing}"]

def perform (fuel : Nat) (w : Workplace) (s : Shell) : Command → Except Interruption Reply
  | .blank => .ok (s.answer [])
  | .leave => .ok ⟨s, false, []⟩
  | .help =>
    match Numeral.write? s.settings.maxCells with
    | none => .error .numeralTooLong
    | some cells => .ok (s.answer [s!"{helpText}{cells} cells"])
  | .load none => .ok (s.answer ["Usage: load <file.bf>"])
  | .load (some path) => s.loadFile w path
  | .code none => .ok (s.answer ["Usage: code <program>"])
  | .code (some source) => .ok (s.loadCode source)
  | .run => s.runLoaded fuel
  | .reset => .ok (answer { s with machine := s.machine.reset } ["Interpreter reset"])
  | .dump request => .ok (s.showTape request)
  | .debug on => .ok (s.setTracing on)
  | .show => .ok s.showSource
  | .clear => .ok (answer { s with source := "" } ["Program cleared"])
  | .status => .ok s.showStatus
  | .unknown word => .ok (s.answer ["Unknown command: " ++ word])

/-- Carries out the command of a line. -/
def handle (fuel : Nat) (w : Workplace) (s : Shell) (line : LooseText) :
    Except Interruption Reply :=
  s.perform fuel w (Command.ofLine line)

end Shell

end Brainfuck
