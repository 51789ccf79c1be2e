import Brainfuck.Program.Brackets
import Brainfuck.Tape
import Brainfuck.Machine.Trace

/-! # The machine

A machine holds a program, a tape, the position of the next instruction and the positions
of the loops it is inside of, and it reads and writes bytes.

* `Machine.effectOf` — what the instruction at hand will do, or the fault it runs into;
* `Machine.carryOut` — does it; together they make `Machine.attempt` and `Machine.step`;
* `Machine.run` — steps until the program ends or fails, for a bounded number of steps;
* `Machine.execute` — checks the brackets, resets, runs and reports.

A fault leaves the machine as it was, but for the trace record of the attempt.
-/

namespace Brainfuck

/-- Where a program's input comes from: bytes not yet read, or a source on which every read
fails.  A failed read and the end of the bytes look the same to the program. -/
inductive Input where
  | bytes (unread : List UInt8)
  | broken
  deriving DecidableEq, Repr

namespace Input

/-- The next byte, if there is one, and what is left. -/
def next : Input → Option UInt8 × Input
  | bytes (b :: rest) => (some b, bytes rest)
  | bytes [] => (none, bytes [])
  | broken => (none, broken)

def unread : Input → List UInt8
  | bytes bs => bs
  | broken => []

end Input

/-- What can stop a running program. -/
inductive Fault where
  | memoryLimit (maxCells : Nat)
  | unmatchedOpen (position : Nat)
  | unmatchedClose (position : Nat)
  deriving DecidableEq, Repr

namespace Fault

def message : Fault → String
  | memoryLimit maxCells => s!"Memory limit exceeded ({maxCells} cells)"
  | unmatchedOpen p => (BracketError.unmatchedOpen p).message
  | unmatchedClose p => (BracketError.unmatchedClose p).message

/-- The position that the fault itself names; the memory limit names none. -/
def position? : Fault → Option Nat
  | memoryLimit _ => none
  | unmatchedOpen p => some p
  | unmatchedClose p => some p

end Fault

/-- What an instruction does once it is known where its jumps go. -/
inductive Effect where
  | moveRight
  | moveLeft
  | increment
  | decrement
  | output
  | input
  /-- Goes into the loop that opens here. -/
  | enter
  /-- Goes past the loop that opens here and closes at `close`. -/
  | skip (close : Nat)
  /-- Goes back to the start of the loop that was opened at `start`. -/
  | again (start : Nat)
  /-- Goes on behind the loop that closes here. -/
  | leave
  deriving DecidableEq, Repr

/-- A program in the course of being run. -/
structure Machine where
  program : Program
  tape : Tape
  /-- Where the next instruction stands. -/
  position : Nat
  /-- Where the loops around that position were opened, innermost first. -/
  openLoops : List Nat
  tracing : Bool
  /-- Instructions carried out since the last reset. -/
  steps : Nat
  /-- Bytes read since the last reset. -/
  reads : Nat
  /-- Bytes written since the last reset. -/
  writes : Nat
  input : Input
  /-- Every byte written so far, by this program and those before it. -/
  output : Array UInt8
  /-- Every record traced so far. -/
  trace : Array TraceRecord

inductive Step where
  /-- The program was already at its end. -/
  | halted
  | ran (after : Machine)
  | failed (fault : Fault) (after : Machine)

inductive Failure where
  | unbalanced (error : BracketError)
  /-- A fault, and the position of the instruction that ran into it. -/
  | fault (fault : Fault) (position : Nat)
  deriving DecidableEq, Repr

namespace Failure

def message : Failure → String
  | unbalanced e => e.message
  | fault f _ => f.message

/-- The position of the instruction that is to blame. -/
def position : Failure → Nat
  | unbalanced e => e.position
  | fault f p => f.position?.getD p

end Failure

structure Report where
  steps : Nat
  outputBytes : Nat
  failure : Option Failure
  deriving DecidableEq, Repr

/-- Whether the execution came to the end of its program. -/
def Report.ok (r : Report) : Bool :=
  r.failure.isNone

namespace Machine

/-- A machine on a given tape, with no program. -/
def onTape (tape : Tape) (tracing : Bool) (input : Input) : Machine where
  program := #[]
  tape := tape
  position := 0
  openLoops := []
  tracing := tracing
  steps := 0
  reads := 0
  writes := 0
  input := input
  output := #[]
  trace := #[]

/-- A machine with a blank tape of the given size, when there can be one. -/
def new? (initialCells maxCells : Int) (tracing : Bool) (input : Input) :
    Except TapeError Machine := do
  let tape ← Tape.new? initialCells maxCells
  return onTape tape tracing input

/-- Blanks the tape and goes back to the start of the program, with all counters at zero. -/
def reset (m : Machine) : Machine :=
  { m with
    tape := m.tape.reset, position := 0, openLoops := [], steps := 0, reads := 0, writes := 0 }

/-- Puts a program into a reset machine. -/
def load (m : Machine) (p : Program) : Machine :=
  { m.reset with program := p }

def halted (m : Machine) : Bool :=
  m.program.size ≤ m.position

def current? (m : Machine) : Option Instruction :=
  m.program[m.position]?

/-- What an instruction at the current position will do, or why it cannot. -/
def effectOf (m : Machine) : Instruction → Except Fault Effect
  | .moveRight => if m.tape.atLimit then .error (.memoryLimit m.tape.maxCells) else .ok .moveRight
  | .moveLeft => .ok .moveLeft
  | .increment => .ok .increment
  | .decrement => .ok .decrement
  | .output => .ok .output
  | .input => .ok .input
  | .openLoop =>
    if m.tape.read = 0 then
      match m.program.closeOf? m.position with
      | some close => .ok (.skip close)
      | none => .error (.unmatchedOpen m.position)
    else .ok .enter
  | .closeLoop =>
    match m.openLoops with
    | [] => .error (.unmatchedClose m.position)
    | start :: _ => if m.tape.read = 0 then .ok .leave else .ok (.again start)

/-- Moves on to a position and counts the step. -/
def goto (m : Machine) (position : Nat) : Machine :=
  { m with position := position, steps := m.steps + 1 }

/-- Stores the next byte of the input, or zero where there is none. -/
def readByte (m : Machine) : Machine :=
  match m.input.next with
  | (some b, rest) => { m with tape := m.tape.put b, input := rest, reads := m.reads + 1 }
  | (none, rest) => { m with tape := m.tape.put 0, input := rest }

def writeByte (m : Machine) : Machine :=
  { m with output := m.output.push m.tape.read, writes := m.writes + 1 }

/-- Does what an effect says and moves on. -/
def carryOut (m : Machine) : Effect → Machine
  | .moveRight => goto { m with tape := m.tape.moveRight } (m.position + 1)
  | .moveLeft => goto { m with tape := m.tape.moveLeft } (m.position + 1)
  | .increment => goto { m with tape := m.tape.increment } (m.position + 1)
  | .decrement => goto { m with tape := m.tape.decrement } (m.position + 1)
  | .output => m.writeByte.goto (m.position + 1)
  | .input => m.readByte.goto (m.position + 1)
  | .enter => goto { m with openLoops := m.position :: m.openLoops } (m.position + 1)
  | .skip close => m.goto (close + 1)
  | .again start => m.goto (start + 1)
  | .leave => goto { m with openLoops := m.openLoops.tail } (m.position + 1)

/-- Leaves a record of the instruction at hand, when tracing is on. -/
def record (m : Machine) (i : Instruction) : Machine :=
  if m.tracing then
    { m with trace := m.trace.push ⟨m.position, i, m.tape.pointer, m.tape.read⟩ }
  else m

/-- Records and carries out the instruction at hand. -/
def attempt (m : Machine) (i : Instruction) : Except (Fault × Machine) Machine :=
  let m := m.record i
  match m.effectOf i with
  | .ok effect => .ok (m.carryOut effect)
  | .error fault => .error (fault, m)

/-- Carries out one instruction, if the program is not at its end. -/
def step (m : Machine) : Step :=
  match m.current? with
  | none => .halted
  | some i =>
    match m.attempt i with
    | .ok after => .ran after
    | .error (fault, after) => .failed fault after

/-- Steps until the program ends or fails, `fuel` steps at most; `none` when that is not
enough. -/
def run : Nat → Machine → Option (Machine × Option Fault)
  | 0, _ => none
  | fuel + 1, m =>
    match m.current? with
    | none => some (m, none)
    | some i =>
      match m.attempt i with
      | .ok after => run fuel after
      | .error (fault, after) => some (after, some fault)

/-- Checks the brackets, resets the machine, runs the program and reports.  A program whose
brackets do not pair up leaves the machine untouched. -/
def execute (fuel : Nat) (m : Machine) : Option (Machine × Report) :=
  match m.program.checkBrackets with
  | .error e => some (m, ⟨m.steps, m.writes, some (.unbalanced e)⟩)
  | .ok () =>
    match run fuel m.reset with
    | none => none
    | some (after, none) => some (after, ⟨after.steps, after.writes, none⟩)
    | some (after, some fault) =>
      some (after, ⟨after.steps, after.writes, some (.fault fault after.position)⟩)

end Machine

end Brainfuck
