import Brainfuck.Machine
import Brainfuck.Program.File
import Brainfuck.Settings

/-! # Running a source

A source is run once, on a new machine that is sized by settings.

* `Machine.ofSettings?` — the machine that settings describe;
* `runProgram` — runs a program on given input and collects what it writes and traces;
* `runFile` — the same for a program file.
-/

namespace Brainfuck

/-- A machine with the sizes and the tracing that settings ask for. -/
def Machine.ofSettings? (s : Settings) (input : Input) : Except TapeError Machine :=
  Machine.new? s.initialCells s.maxCells s.debug input

structure RunOutcome where
  report : Report
  output : List UInt8
  trace : List TraceRecord
  deriving DecidableEq, Repr

inductive RunError where
  | tape (e : TapeError)
  | file (e : ProgramFileError)
  /-- The program did not end within the given number of steps. -/
  | unfinished
  deriving DecidableEq, Repr

/-- Runs a program once, on a new machine.  Tracing is on when it is asked for here or in the
settings. -/
def runProgram (fuel : Nat) (p : Program) (input : List UInt8) (tracing : Bool) (s : Settings) :
    Except RunError RunOutcome :=
  match Machine.ofSettings? s (.bytes input) with
  | .error e => .error (.tape e)
  | .ok m =>
    match (Machine.load { m with tracing := tracing || m.tracing } p).execute fuel with
    | none => .error .unfinished
    | some (after, report) => .ok ⟨report, after.output.toList, after.trace.toList⟩

/-- Runs a program file once, on a new machine. -/
def runFile (fuel : Nat) (w : Workplace) (path : LooseText) (input : List UInt8) (s : Settings) :
    Except RunError RunOutcome :=
  match readProgramFile w path s.maxFileSize with
  | .error e => .error (.file e)
  | .ok source => runProgram fuel (Program.ofText source) input false s

end Brainfuck
