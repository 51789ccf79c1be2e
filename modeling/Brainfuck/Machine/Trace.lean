import Brainfuck.Instruction

/-! # Traces

With tracing on, the machine leaves one record for every instruction it is about to carry
out: where the instruction stands, and the pointer and the cell it finds.

* `Trace.line` — the text of one record;
* `Trace.text` — the text of all records, a line each.
-/

namespace Brainfuck

/-- The text of one traced step, without its line end. -/
def traceLine (position : Int) (symbol : String) (pointer value : Int) : String :=
  s!"[DEBUG] Step {position}: '{symbol}' ptr={pointer} val={value}"

/-- What the machine saw just before an instruction took effect. -/
structure TraceRecord where
  position : Nat
  instruction : Instruction
  pointer : Nat
  value : UInt8
  deriving DecidableEq, Repr

namespace TraceRecord

/-- The line that shows a record. -/
def line (r : TraceRecord) : String :=
  traceLine r.position r.instruction.symbol.toString r.pointer r.value.toNat

end TraceRecord

/-- The lines of a sequence of records, each with its line end. -/
def traceText (records : List TraceRecord) : String :=
  String.join (records.map fun r => r.line ++ "\n")

end Brainfuck
