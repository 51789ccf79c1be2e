import Brainfuck.Number.Numeral
import Brainfuck.Settings
import Brainfuck.Text.Quoted

/-! # Values from texts

How a text becomes the value of a field.

* `readBoolean?`, `readInteger?` — the words for true and false, and numerals;
* `SettingsError` — what can be wrong with settings, with its wording;
* `assignText` — a field with the value that a text stands for.
-/

namespace Brainfuck

inductive SettingsError where
  | unreadable (path : String) (cause : PathError)
  /-- `detail` is what the reader of YAML says. -/
  | invalidYaml (path : String) (detail : LooseText)
  | notAMapping (path : String)
  | unknownSetting (path : String) (key : LooseText)
  /-- The value given for a field is no boolean; it is shown as it was given. -/
  | notABoolean (name shown : String)
  | notAnInteger (name shown : String)
  | violation (v : Violation)
  deriving DecidableEq, Repr

/-- The error as it is told to a user; the name of an unknown setting is told as it is. -/
def SettingsError.message : SettingsError → LooseText
  | unreadable path cause =>
    .ofString s!"Cannot read config file {path}: {cause.message}: {Text.quoted path}"
  | invalidYaml path detail => s!"Invalid YAML in {path}: " ++ detail
  | notAMapping path => .ofString s!"{path}: expected a mapping of settings"
  | unknownSetting path key =>
    .ofString s!"{path}: unknown setting '" ++ key ++ .ofString "'"
  | notABoolean name shown => .ofString s!"{name}: expected a boolean, got {shown}"
  | notAnInteger name shown => .ofString s!"{name}: expected an integer, got {shown}"
  | violation v => .ofString v.message

def trueWords : List String := ["1", "true", "yes", "on"]

def falseWords : List String := ["0", "false", "no", "off"]

/-- The boolean a text stands for: one of the words, in any letter case, with blanks around
it.  The words have no letter that a character outside ASCII could be the capital of. -/
def readBoolean? (text : LooseText) : Option Bool := do
  let word := String.ofList ((Text.trim (← text.chars?)).map Char.toLower)
  if word ∈ trueWords then some true
  else if word ∈ falseWords then some false
  else none

/-- The integer a text stands for. -/
def readInteger? (text : LooseText) : Option Int :=
  text.chars?.bind Numeral.read?

namespace Field

/-- The assignment of an integer to an integer field; `none` for a field of another kind. -/
def assignInteger (field : Field) (value : Int) : Option Assignment :=
  match field with
  | initialCells => some (.initialCells value)
  | maxCells => some (.maxCells value)
  | maxFileSize => some (.maxFileSize value)
  | maxCodeLength => some (.maxCodeLength value)
  | dumpCount => some (.dumpCount value)
  | debug => none
  | prompt => none

/-- A field with the value that a text stands for; `name` is what errors call the field. -/
def assignText (field : Field) (name : String) (text : LooseText) :
    Except SettingsError Assignment :=
  match field with
  | debug =>
    match readBoolean? text with
    | some b => .ok (.debug b)
    | none => .error (.notABoolean name text.quoted)
  | prompt => .ok (.prompt text)
  | field =>
    match (readInteger? text).bind field.assignInteger with
    | some a => .ok a
    | none => .error (.notAnInteger name text.quoted)

end Field

end Brainfuck
