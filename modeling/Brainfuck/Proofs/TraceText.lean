import Brainfuck.Machine.Trace

/-! # Reading a trace

A trace can be read back: the lines of its text, and from each line the record that it shows.

* `TraceRecord.read?` — the record of a line;
* `splitOn_traceText`, `read?_line` — the lines of a trace are those of its records, and each of
  them has one record only;
* `traceText_injective` — so a text is the trace of one sequence of records only.

A number in a line ends where the next character is no digit.  That is all it takes to find the
parts of a line again, for the text between them is fixed.
-/

namespace Brainfuck

/-- The decimal number in front of a text, and what is behind it. -/
def number? (cs : List Char) : Option (Nat × List Char) :=
  let digits := cs.takeWhile Char.isDigit
  if digits.isEmpty then none
  else some (Nat.ofDigitChars 10 digits 0, cs.dropWhile Char.isDigit)

theorem number?_toDigits (n : Nat) {rest : List Char} (ends : ∀ c ∈ rest.head?, c.isDigit = false) :
    number? (Nat.toDigits 10 n ++ rest) = some (n, rest) := by
  have digits : ∀ c ∈ Nat.toDigits 10 n, c.isDigit = true := fun c member =>
    Nat.isDigit_of_mem_toDigits (by decide) (by decide) member
  have front : rest.takeWhile Char.isDigit = [] := by
    cases rest with
    | nil => rfl
    | cons c _ => simp [ends c rfl]
  have behind : rest.dropWhile Char.isDigit = rest := by
    cases rest with
    | nil => rfl
    | cons c _ => simp [ends c rfl]
  simp [number?, List.takeWhile_append_of_pos digits, List.dropWhile_append_of_pos digits, front,
    behind, Nat.toDigits_ne_nil, Nat.ofDigitChars_toDigits]

theorem isPrefixOf?_append (front rest : List Char) :
    front.isPrefixOf? (front ++ rest) = some rest := by
  induction front with
  | nil => rfl
  | cons c front ih => exact (if_pos (beq_self_eq_true c)).trans ih

namespace TraceRecord

/-- The record that a line shows. -/
def read? (line : List Char) : Option TraceRecord := do
  let rest ← "[DEBUG] Step ".toList.isPrefixOf? line
  let (position, rest) ← number? rest
  let rest ← ": '".toList.isPrefixOf? rest
  let instruction ← rest.head?.bind Instruction.ofChar?
  let rest ← "' ptr=".toList.isPrefixOf? rest.tail
  let (pointer, rest) ← number? rest
  let rest ← " val=".toList.isPrefixOf? rest
  let (value, rest) ← number? rest
  if rest.isEmpty ∧ value < 256 then some ⟨position, instruction, pointer, .ofNat value⟩ else none

theorem toList_line (r : TraceRecord) :
    r.line.toList =
      "[DEBUG] Step ".toList ++ (Nat.toDigits 10 r.position ++
        (": '".toList ++ (r.instruction.symbol ::
          ("' ptr=".toList ++ (Nat.toDigits 10 r.pointer ++
            (" val=".toList ++ Nat.toDigits 10 r.value.toNat)))))) := by
  have parts : r.line = "[DEBUG] Step " ++ r.position.repr ++ ": '" ++
      r.instruction.symbol.toString ++ "' ptr=" ++ r.pointer.repr ++ " val=" ++
      r.value.toNat.repr := rfl
  rw [parts]
  simp only [String.toList_append, Nat.toList_repr, List.append_assoc, Char.toString_eq_singleton,
    String.toList_singleton, List.cons_append, List.nil_append]

/-- Every record is the one that is read from its line. -/
@[simp] theorem read?_line (r : TraceRecord) : read? r.line.toList = some r := by
  have small : r.value.toNat < 256 := r.value.toNat_lt
  rw [read?, toList_line, isPrefixOf?_append, Option.bind_eq_bind, Option.bind_some,
    number?_toDigits r.position (by simp)]
  simp only [Option.bind_eq_bind, Option.bind_some, isPrefixOf?_append, List.head?_cons,
    Instruction.ofChar?_symbol, List.tail_cons]
  rw [number?_toDigits r.pointer (by simp)]
  simp only [Option.bind_some, isPrefixOf?_append]
  have last := @number?_toDigits r.value.toNat [] (by simp)
  rw [List.append_nil] at last
  simp [last, small]

theorem line_injective : Function.Injective line := by
  intro r r' same
  have read := read?_line r
  rw [same, read?_line] at read
  exact (Option.some.inj read).symm

theorem newline_notMem_line (r : TraceRecord) : '\n' ∉ r.line.toList := by
  have digits : ∀ n, '\n' ∉ Nat.toDigits 10 n := fun n member =>
    absurd (Nat.isDigit_of_mem_toDigits (by decide) (by decide) member) (by decide)
  have symbol : '\n' ≠ r.instruction.symbol := by cases r.instruction <;> decide
  rw [toList_line]
  simp [digits, symbol]

end TraceRecord

/-- The lines of a trace are those of its records, each with its line end. -/
theorem splitOn_traceText (records : List TraceRecord) :
    (traceText records).toList.splitOn '\n' = records.map (·.line.toList) ++ [[]] := by
  induction records with
  | nil => rfl
  | cons r rest ih =>
    have split : (traceText (r :: rest)).toList =
        r.line.toList ++ '\n' :: (traceText rest).toList := by
      simp [traceText, String.toList_join]
    rw [split, List.splitOn_append_cons_self_of_not_mem r.newline_notMem_line, ih, List.map_cons,
      List.cons_append]

/-- A text is the trace of one sequence of records only. -/
theorem traceText_injective : Function.Injective traceText := by
  intro records records' same
  have lines : records.map (·.line.toList) ++ [[]] = records'.map (·.line.toList) ++ [[]] := by
    rw [← splitOn_traceText, ← splitOn_traceText, same]
  have lines := congrArg (List.filterMap TraceRecord.read?) (List.append_cancel_right lines)
  simpa [List.filterMap_map, Function.comp_def] using lines

end Brainfuck
