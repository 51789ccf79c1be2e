/-! # Instructions

The eight commands of the language and their one-character symbols.  Every other
character of a source text is a comment.

* `Instruction.symbol` — the character that stands for an instruction;
* `Instruction.ofChar?` — reads such a character, `none` for a comment.
-/

namespace Brainfuck

inductive Instruction where
  | moveRight
  | moveLeft
  | increment
  | decrement
  | output
  | input
  | openLoop
  | closeLoop
  deriving DecidableEq, Repr, Inhabited

namespace Instruction

def symbol : Instruction → Char
  | moveRight => '>'
  | moveLeft => '<'
  | increment => '+'
  | decrement => '-'
  | output => '.'
  | input => ','
  | openLoop => '['
  | closeLoop => ']'

/-- The instruction a character stands for; a comment character has none. -/
def ofChar? : Char → Option Instruction
  | '>' => some moveRight
  | '<' => some moveLeft
  | '+' => some increment
  | '-' => some decrement
  | '.' => some output
  | ',' => some input
  | '[' => some openLoop
  | ']' => some closeLoop
  | _ => none

@[simp] theorem ofChar?_symbol (i : Instruction) : ofChar? i.symbol = some i := by
  cases i <;> rfl

/-- Only the symbol of an instruction is read as that instruction. -/
theorem eq_symbol_of_ofChar? {c : Char} {i : Instruction} (h : ofChar? c = some i) :
    c = i.symbol := by
  unfold ofChar? at h
  split at h <;> simp_all [symbol]
  all_goals (cases h; rfl)

end Instruction

end Brainfuck
