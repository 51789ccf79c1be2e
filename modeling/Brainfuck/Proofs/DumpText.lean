import Brainfuck.Proofs.TraceText
import Brainfuck.Proofs.Window
import Brainfuck.Tape.Dump

/-! # Reading a dump

A dump can be read back: the range in front of it and, token by token, the cells that it shows.

* `Dump`, `DumpCell` — what a dump shows, with their texts;
* `Dump.read?_text` — reading a text back; so a text is that of one dump only
  (`Dump.text_injective`);
* `Tape.dump_eq_text` — what a dump of a tape shows, clipped at the end of the tape;
* `read?_dump` — from the dumps of a tape its cells can be had again.

A token holds no blank, so the blanks between tokens tell them apart.  The numbers are read as those
of a trace are, each up to the first character that is no digit.
-/

namespace Brainfuck

theorem mapM_eq_some {α β : Type} {f : α → Option β} {g : α → β} {l : List α}
    (each : ∀ a ∈ l, f a = some (g a)) : l.mapM f = some (l.map g) := by
  induction l with
  | nil => rfl
  | cons a l ih =>
    rw [List.mapM_cons, each a List.mem_cons_self,
      ih fun b member => each b (List.mem_cons_of_mem a member)]
    rfl

/-- A cell as a dump shows it. -/
structure DumpCell where
  value : UInt8
  /-- Whether it stands in brackets. -/
  marked : Bool
  deriving DecidableEq, Repr

/-- What a dump shows: the first and the last index of the range, and the cells. -/
structure Dump where
  first : Nat
  last : Nat
  cells : List DumpCell
  deriving DecidableEq, Repr

namespace DumpCell

def text (c : DumpCell) : String :=
  if c.marked then s!"[{c.value.toNat}]" else s!"{c.value.toNat}"

/-- The cell that a token shows. -/
def read? (token : List Char) : Option DumpCell := do
  let marked := token.head? = some '['
  let (value, rest) ← number? (if marked then token.tail else token)
  if rest = (if marked then [']'] else []) ∧ value < 256 then some ⟨.ofNat value, marked⟩ else none

theorem toList_text (c : DumpCell) :
    c.text.toList =
      if c.marked then '[' :: (Nat.toDigits 10 c.value.toNat ++ [']'])
      else Nat.toDigits 10 c.value.toNat := by
  cases marked : c.marked with
  | true =>
    have parts : c.text = "[" ++ c.value.toNat.repr ++ "]" := by
      rw [text, marked]
      rfl
    rw [parts]
    simp [Nat.toList_repr]
  | false =>
    have parts : c.text = c.value.toNat.repr := by
      rw [text, marked]
      rfl
    rw [parts]
    simp [Nat.toList_repr]

/-- A number does not begin with a bracket. -/
theorem head?_toDigits_ne (n : Nat) : (Nat.toDigits 10 n).head? ≠ some '[' := by
  intro first
  have member := List.mem_of_head? first
  exact absurd (Nat.isDigit_of_mem_toDigits (by decide) (by decide) member) (by decide)

/-- Every cell is the one that is read from its token. -/
@[simp] theorem read?_text (c : DumpCell) : read? c.text.toList = some c := by
  obtain ⟨value, marked⟩ := c
  have small : value.toNat < 256 := value.toNat_lt
  cases marked with
  | true =>
    have number := @number?_toDigits value.toNat [']'] (by simp)
    simp [read?, toList_text, number, small]
  | false =>
    have number := @number?_toDigits value.toNat [] (by simp)
    rw [List.append_nil] at number
    simp [read?, toList_text, head?_toDigits_ne, number, small]

theorem blank_notMem_text (c : DumpCell) : ' ' ∉ c.text.toList := by
  have digits : ' ' ∉ Nat.toDigits 10 c.value.toNat := fun member =>
    absurd (Nat.isDigit_of_mem_toDigits (by decide) (by decide) member) (by decide)
  rw [toList_text]
  split <;> simp [digits]

theorem text_ne_nil (c : DumpCell) : c.text.toList ≠ [] := by
  rw [toList_text]
  split <;> simp [Nat.toDigits_ne_nil]

/-- The text of some cells, with one blank between them. -/
def textOf (cells : List DumpCell) : List Char :=
  [' '].intercalate (cells.map (·.text.toList))

/-- The cells that a text of tokens shows. -/
def readAll? (text : List Char) : Option (List DumpCell) :=
  if text.isEmpty then some [] else (text.splitOn ' ').mapM read?

theorem textOf_ne_nil (c : DumpCell) (rest : List DumpCell) : textOf (c :: rest) ≠ [] := by
  cases rest with
  | nil =>
    rw [textOf, List.map_singleton, List.intercalate_singleton]
    exact c.text_ne_nil
  | cons c' rest => simp [textOf, List.intercalate_cons_cons]

/-- Every sequence of cells is the one that is read from its text. -/
@[simp] theorem readAll?_textOf (cells : List DumpCell) : readAll? (textOf cells) = some cells := by
  cases cells with
  | nil => rfl
  | cons c rest =>
    have blanks : ∀ token ∈ (c :: rest).map (·.text.toList), ' ' ∉ token := by
      simp [blank_notMem_text]
    rw [readAll?, if_neg (by simpa using textOf_ne_nil c rest), textOf,
      List.splitOn_intercalate ' ' blanks (by simp), List.mapM_map]
    exact (mapM_eq_some fun c _ => read?_text c).trans (congrArg some (List.map_id _))

end DumpCell

namespace Dump

def text (d : Dump) : String :=
  s!"Memory [{d.first}-{d.last}]: " ++ " ".intercalate (d.cells.map DumpCell.text)

/-- What a text shows as a dump. -/
def read? (text : List Char) : Option Dump := do
  let rest ← "Memory [".toList.isPrefixOf? text
  let (first, rest) ← number? rest
  let rest ← "-".toList.isPrefixOf? rest
  let (last, rest) ← number? rest
  let rest ← "]: ".toList.isPrefixOf? rest
  let cells ← DumpCell.readAll? rest
  return ⟨first, last, cells⟩

theorem toList_text (d : Dump) :
    d.text.toList =
      "Memory [".toList ++ (Nat.toDigits 10 d.first ++
        ("-".toList ++ (Nat.toDigits 10 d.last ++
          ("]: ".toList ++ DumpCell.textOf d.cells)))) := by
  have parts : d.text = "Memory [" ++ d.first.repr ++ "-" ++ d.last.repr ++ "]: " ++
      " ".intercalate (d.cells.map DumpCell.text) := rfl
  rw [parts]
  simp [Nat.toList_repr, String.toList_intercalate, DumpCell.textOf, Function.comp_def]

/-- Every dump is the one that is read from its text. -/
@[simp] theorem read?_text (d : Dump) : read? d.text.toList = some d := by
  rw [read?, toList_text, isPrefixOf?_append, Option.bind_eq_bind, Option.bind_some,
    number?_toDigits d.first (by simp)]
  simp only [Option.bind_eq_bind, Option.bind_some, isPrefixOf?_append]
  rw [number?_toDigits d.last (by simp)]
  simp only [Option.bind_some, isPrefixOf?_append, DumpCell.readAll?_textOf]
  rfl

theorem text_injective : Function.Injective text := by
  intro d d' same
  have read := read?_text d
  rw [same, read?_text] at read
  exact (Option.some.inj read).symm

end Dump

namespace Tape

variable {t : Tape}

/-- A cell of a tape as a dump shows it. -/
def shown (t : Tape) (i : Nat) : DumpCell :=
  ⟨t.cell i, i = t.pointer⟩

/-- What a dump of some cells shows; the range ends with the tape. -/
def dumped (t : Tape) (start count : Nat) : Dump :=
  let length := min count (t.size - start)
  ⟨start, start + length - 1, (List.range' start length).map t.shown⟩

/-- The cells of a range, which ends with the tape. -/
theorem window_eq (count : Nat) {start : Nat} (inside : start < t.size) :
    t.window start count =
      (List.range' start (min count (t.size - start))).map t.cell := by
  have first : min start t.size = start := Nat.min_eq_left (Nat.le_of_lt inside)
  have length : min (start + count) t.size - start = min count (t.size - start) := by omega
  rw [window_eq_between, ← Int.natCast_add, clampBound_natCast, clampBound_natCast, between, first,
    length]

theorem text_shown (t : Tape) (i : Nat) : (t.shown i).text = t.dumpToken i (t.cell i) := by
  by_cases here : i = t.pointer <;> simp [DumpCell.text, shown, dumpToken, here]

theorem zipIdx_map_range' {α : Type} (f : Nat → α) (start length : Nat) :
    ((List.range' start length).map f).zipIdx start =
      (List.range' start length).map fun i => (f i, i) :=
  List.ext_getElem (by simp) fun i _ _ => by simp

/-- A dump of a range that begins on the tape is the text of what it shows. -/
theorem dump_eq_text {start count : Nat} (inside : start < t.size) (positive : 0 < count) :
    t.dump start count = (t.dumped start count).text := by
  have tokens : (List.range' start (min count (t.size - start))).map
      (fun i => t.dumpToken i (t.cell i)) = (t.dumped start count).cells.map DumpCell.text := by
    rw [dumped, List.map_map]
    exact List.map_congr_left fun i _ => (t.text_shown i).symm
  have last : (start : Int) + (t.window start count).length - 1 =
      (t.dumped start count).last := by
    rw [window_eq count inside]
    simp only [List.length_map, List.length_range', dumped]
    omega
  rw [dump, if_neg (by omega), if_neg (by omega), if_neg (by omega)]
  simp only [last, Int.toNat_natCast]
  rw [window_eq count inside, zipIdx_map_range', List.map_map, Dump.text, ← tokens]
  rfl

theorem flatMap_range'_chunks (size length count : Nat) :
    (((List.range count).map (· * length)).filter (· < size)).flatMap
        (fun start => List.range' start (min length (size - start))) =
      List.range (min (count * length) size) := by
  induction count with
  | zero => simp
  | succ count ih =>
    rw [List.range_succ, List.map_append, List.filter_append, List.flatMap_append, ih,
      Nat.succ_mul]
    by_cases inside : count * length < size
    · have whole : min (count * length) size = count * length := by omega
      have next : count * length + min length (size - count * length) =
          min (count * length + length) size := by omega
      have behind := @List.range'_append_1 0 (count * length)
        (min length (size - count * length))
      rw [Nat.zero_add, next] at behind
      simp [inside, whole, List.range_eq_range', behind]
    · have done : min (count * length) size = min (count * length + length) size := by omega
      simp [inside, done]

/-- The first indices of dumps that show a tape that many cells at a time. -/
def chunkStarts (t : Tape) (length : Nat) : List Nat :=
  ((List.range t.size).map (· * length)).filter (· < t.size)

/-- Dumps of one length after another show every cell once, in order. -/
theorem flatMap_dumped (t : Tape) {length : Nat} (positive : 0 < length) :
    (t.chunkStarts length).flatMap (fun start => (t.dumped start length).cells) =
      (List.range t.size).map t.shown := by
  have whole : min (t.size * length) t.size = t.size :=
    Nat.min_eq_right (Nat.le_mul_of_pos_right _ positive)
  have cells := flatMap_range'_chunks t.size length t.size
  rw [whole] at cells
  rw [← cells, List.map_flatMap]
  rfl

theorem countP_shown (t : Tape) :
    ((List.range t.size).map t.shown).countP DumpCell.marked = 1 := by
  have marked : DumpCell.marked ∘ t.shown = (· == t.pointer) := by
    funext i
    exact decide_eq_decide.mpr Iff.rfl
  rw [List.countP_map, marked]
  exact List.count_range.trans (if_pos t.pointer_lt)

/-- Whatever the tape, where a dump begins on it and how many cells it is asked for, the text of the
dump has one reading, and no other dump has that text.  It begins where it was asked to, it shows as
many cells as it was asked for and as there are, and its last index is that of the last cell.  Each
token has the value of its cell, and it stands in brackets exactly if the pointer is there.  So a
tape that is dumped any number of cells at a time is had back whole: every cell once and in order,
with one token in brackets over all of the dumps, and that at the pointer. -/
theorem read?_dump (t : Tape) :
    (∀ start count : Int, 0 ≤ start → start < t.size → 0 < count →
      ∃ d : Dump, Dump.read? (t.dump start count).toList = some d ∧
        (∀ d' : Dump, d'.text = t.dump start count ↔ d' = d) ∧
        d.first = start ∧ d.last = start + d.cells.length - 1 ∧
        d.cells.length = min count (t.size - start) ∧
        ∀ i < d.cells.length,
          d.cells[i]? = some ⟨t.cell (start.toNat + i), start + i = t.pointer⟩) ∧
    ∀ length : Nat, 0 < length →
      ∃ ds : List Dump,
        (t.chunkStarts length).mapM (fun start : Nat => Dump.read? (t.dump start length).toList) =
          some ds ∧
        let cells := ds.flatMap Dump.cells
        cells = (List.range t.size).map (fun i => ⟨t.cell i, i = t.pointer⟩) ∧
        cells.countP DumpCell.marked = 1 ∧ cells[t.pointer]? = some ⟨t.read, true⟩ := by
  refine ⟨fun start count nonneg inside positive => ?_, fun length positive => ?_⟩
  · obtain ⟨start, rfl⟩ := Int.eq_ofNat_of_zero_le nonneg
    obtain ⟨count, rfl⟩ := Int.eq_ofNat_of_zero_le (Int.le_of_lt positive)
    have inside : start < t.size := by omega
    have shown : t.dump start count = (t.dumped start count).text :=
      dump_eq_text inside (by omega)
    have length : (t.dumped start count).cells.length = min count (t.size - start) := by
      simp [dumped]
    refine ⟨t.dumped start count, ?_, fun d => ⟨fun same => ?_, fun same => ?_⟩, rfl, ?_, ?_,
      fun i there => ?_⟩
    · rw [shown, Dump.read?_text]
    · exact Dump.text_injective (same.trans shown)
    · rw [same, shown]
    · rw [length]
      simp only [dumped]
      omega
    · rw [length]
      omega
    · rw [length] at there
      have index : (start : Int) + i = t.pointer ↔ start + i = t.pointer := by omega
      simp [dumped, there, Tape.shown, index]
  · refine ⟨(t.chunkStarts length).map (t.dumped · length),
      mapM_eq_some fun start member => ?_, ?_⟩
    · have inside : start < t.size := by simpa using (List.mem_filter.mp member).2
      rw [dump_eq_text inside positive, Dump.read?_text]
    · have cells := t.flatMap_dumped positive
      rw [List.flatMap_map, cells]
      refine ⟨rfl, t.countP_shown, ?_⟩
      have inside : t.pointer < t.size := t.pointer_lt
      simp [inside, Tape.shown, read_eq_cell]

/-- A dump of the whole tape, with the pointer on the second cell. -/
example :
    Dump.read? "Memory [0-3]: 5 [6] 0 0".toList =
      some ⟨0, 3, [⟨5, false⟩, ⟨6, true⟩, ⟨0, false⟩, ⟨0, false⟩]⟩ := by
  decide +kernel

end Tape

end Brainfuck
