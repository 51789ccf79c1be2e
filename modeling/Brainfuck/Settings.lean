import Brainfuck.Tape
import Brainfuck.Program.File
import Brainfuck.Text.Loose

/-! # Settings

The seven settings, their defaults and the conditions on them.

* `Field` — the names of the settings and what kind of value each has;
* `Assignment` — one field with a value; a layer of settings is a list of assignments;
* `Settings.check` — the first condition that settings violate, and none if all of them hold
  (`check_eq_ok_iff`);
* `Settings.overlay` — puts a layer over settings and checks the outcome as a whole.
-/

namespace Brainfuck

/-- What the shell, the command line and the runner go by. -/
structure Settings where
  initialCells : Int := Tape.defaultCells
  maxCells : Int := Tape.defaultMaxCells
  debug : Bool := false
  /-- The largest program file, in bytes. -/
  maxFileSize : Int := defaultMaxFileSize
  /-- The longest program that can be typed in, in characters. -/
  maxCodeLength : Int := 10000
  dumpCount : Int := 16
  prompt : LooseText := .ofString "trbbfi> "
  deriving DecidableEq, Repr

/-- A condition on settings that does not hold. -/
inductive Violation where
  | initialCells
  | maxCells
  | maxFileSize
  | maxCodeLength
  | dumpCount
  deriving DecidableEq, Repr

def Violation.message : Violation → String
  | initialCells => "initial_cells must be positive"
  | maxCells => "max_cells must be at least initial_cells"
  | maxFileSize => "max_file_size must be positive"
  | maxCodeLength => "max_code_length must be positive"
  | dumpCount => "dump_count must be positive"

/-- The settings by name. -/
inductive Field where
  | initialCells
  | maxCells
  | debug
  | maxFileSize
  | maxCodeLength
  | dumpCount
  | prompt
  deriving DecidableEq, Repr

inductive FieldKind where
  | integer
  | boolean
  | text
  deriving DecidableEq, Repr

namespace Field

/-- All fields, in the order in which they are told. -/
def all : List Field :=
  [initialCells, maxCells, debug, maxFileSize, maxCodeLength, dumpCount, prompt]

def name : Field → String
  | initialCells => "initial_cells"
  | maxCells => "max_cells"
  | debug => "debug"
  | maxFileSize => "max_file_size"
  | maxCodeLength => "max_code_length"
  | dumpCount => "dump_count"
  | prompt => "prompt"

/-- The environment variable that sets a field. -/
def variableName : Field → String
  | initialCells => "TRBBFI_INITIAL_CELLS"
  | maxCells => "TRBBFI_MAX_CELLS"
  | debug => "TRBBFI_DEBUG"
  | maxFileSize => "TRBBFI_MAX_FILE_SIZE"
  | maxCodeLength => "TRBBFI_MAX_CODE_LENGTH"
  | dumpCount => "TRBBFI_DUMP_COUNT"
  | prompt => "TRBBFI_PROMPT"

def kind : Field → FieldKind
  | debug => .boolean
  | prompt => .text
  | _ => .integer

def ofName? (name : String) : Option Field :=
  all.find? fun f => f.name == name

end Field

/-- One field with a value of its kind. -/
inductive Assignment where
  | initialCells (value : Int)
  | maxCells (value : Int)
  | debug (value : Bool)
  | maxFileSize (value : Int)
  | maxCodeLength (value : Int)
  | dumpCount (value : Int)
  | prompt (value : LooseText)
  deriving DecidableEq, Repr

def Assignment.field : Assignment → Field
  | initialCells _ => .initialCells
  | maxCells _ => .maxCells
  | debug _ => .debug
  | maxFileSize _ => .maxFileSize
  | maxCodeLength _ => .maxCodeLength
  | dumpCount _ => .dumpCount
  | prompt _ => .prompt

namespace Settings

/-- The first condition that does not hold: sizes are positive, and the cap of the tape is
not below its first length. -/
def check (s : Settings) : Except Violation Unit :=
  if s.initialCells ≤ 0 then .error .initialCells
  else if s.maxCells < s.initialCells then .error .maxCells
  else if s.maxFileSize ≤ 0 then .error .maxFileSize
  else if s.maxCodeLength ≤ 0 then .error .maxCodeLength
  else if s.dumpCount ≤ 0 then .error .dumpCount
  else .ok ()

theorem check_eq_ok_iff {s : Settings} :
    s.check = .ok () ↔
      0 < s.initialCells ∧ s.initialCells ≤ s.maxCells ∧ 0 < s.maxFileSize ∧
        0 < s.maxCodeLength ∧ 0 < s.dumpCount := by
  unfold check
  repeat' split
  all_goals simp only [reduceCtorEq, false_iff, true_iff]
  all_goals omega

def assign (s : Settings) : Assignment → Settings
  | .initialCells v => { s with initialCells := v }
  | .maxCells v => { s with maxCells := v }
  | .debug v => { s with debug := v }
  | .maxFileSize v => { s with maxFileSize := v }
  | .maxCodeLength v => { s with maxCodeLength := v }
  | .dumpCount v => { s with dumpCount := v }
  | .prompt v => { s with prompt := v }

def get (s : Settings) : Field → Assignment
  | .initialCells => .initialCells s.initialCells
  | .maxCells => .maxCells s.maxCells
  | .debug => .debug s.debug
  | .maxFileSize => .maxFileSize s.maxFileSize
  | .maxCodeLength => .maxCodeLength s.maxCodeLength
  | .dumpCount => .dumpCount s.dumpCount
  | .prompt => .prompt s.prompt

/-- Puts a layer over settings; the outcome has to satisfy every condition. -/
def overlay (s : Settings) (layer : List Assignment) : Except Violation Settings :=
  let after := layer.foldl assign s
  match after.check with
  | .error v => .error v
  | .ok () => .ok after

/-- The defaults with a layer over them. -/
def ofLayer (layer : List Assignment) : Except Violation Settings :=
  overlay {} layer

end Settings

end Brainfuck
