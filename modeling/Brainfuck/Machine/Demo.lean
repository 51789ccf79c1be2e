import Brainfuck.Machine.Source
import Brainfuck.Tape.Dump

/-! # A demonstration

Traces a short program and dumps the tape that it leaves.
-/

namespace Brainfuck.Demo

/-- The program of the demonstration: it moves the number 2 onto the number 3. -/
def source : String := "++>+++<[->+<]>"

def machine : Machine :=
  (Machine.onTape (Tape.blank Tape.defaultCells Tape.defaultMaxCells (by decide) (by decide))
    true (.bytes [])).load (Program.ofText source)

/-- What the demonstration says at the end, and what it traces on the way. -/
def run (fuel : Nat) : Option (String × String) :=
  (machine.execute fuel).map fun (after, report) =>
    let ok := if report.ok then "True" else "False"
    (s!"ok={ok} steps={report.steps}\n" ++ after.tape.dump 0 4 ++ "\n",
      traceText after.trace.toList)

end Brainfuck.Demo
