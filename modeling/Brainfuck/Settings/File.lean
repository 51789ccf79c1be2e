import Brainfuck.Files
import Brainfuck.Settings.Coercion
import Brainfuck.Yaml.Document

/-! # Settings files

A settings file is a YAML mapping from names of fields to values.

* `Field.assignValue` — a field with the value that a YAML value gives;
* `readLayer` — the assignments of a document, in its order;
* `loadSettingsFile` — the assignments of a file.
-/

namespace Brainfuck

inductive LoadError where
  /-- The settings are at fault, which is told to the user. -/
  | settings (e : SettingsError)
  /-- The path of the file holds the character NUL. -/
  | nulInPath
  /-- The file is not UTF-8. -/
  | notUtf8
  /-- A value cannot be made or cannot be shown. -/
  | value (e : Yaml.Error)
  /-- An infinity is given for an integer. -/
  | infiniteInteger
  /-- The variable file is not UTF-8. -/
  | variableFileNotUtf8
  /-- The variable file has a variable that no environment can have. -/
  | badVariable
  deriving DecidableEq, Repr

namespace Field

/-- The text of a value where an error shows it. -/
def shown (d : Yaml.Document) (v : Yaml.Value) : Except LoadError String :=
  (d.literal v).mapError .value

def notAnInteger (field : Field) (d : Yaml.Document) (v : Yaml.Value) :
    Except LoadError Assignment := do
  throw (.settings (.notAnInteger field.name (← shown d v)))

/-- An integer field with a value that was turned into an integer, or the error that it
could not be. -/
def assignNumber (field : Field) (d : Yaml.Document) (v : Yaml.Value) (n : Option Int) :
    Except LoadError Assignment :=
  match n.bind field.assignInteger with
  | some a => .ok a
  | none => field.notAnInteger d v

/-- The integer that a value gives for an integer field.  Numbers with a fraction lose it,
texts and bytes are read as numerals, and nothing else is an integer. -/
def assignIntegerValue (field : Field) (d : Yaml.Document) (v : Yaml.Value) :
    Except LoadError Assignment :=
  match v with
  | .integer n => field.assignNumber d v (some n)
  | .real x => if x.isInfinite then .error .infiniteInteger else field.assignNumber d v x.truncate
  | .text s => field.assignNumber d v (readInteger? s)
  | .bytes bs =>
    field.assignNumber d v
      (if bs.all (· < 0x80) then Numeral.read? (bs.map fun b => Char.ofNat b.toNat) else none)
  | v => field.notAnInteger d v

/-- A field with the value that a YAML value gives. -/
def assignValue (field : Field) (d : Yaml.Document) (v : Yaml.Value) :
    Except LoadError Assignment :=
  match field.kind with
  | .boolean =>
    match v with
    | .boolean b => .ok (.debug b)
    | v => do
      let text ← (d.text v).mapError .value
      match readBoolean? text with
      | some b => return .debug b
      | none => throw (.settings (.notABoolean field.name (← shown d v)))
  | .text => do
    let text ← (d.text v).mapError .value
    return .prompt text
  | .integer => field.assignIntegerValue d v

end Field

/-- The assignment of one entry of a settings file. -/
def readEntry (path : String) (d : Yaml.Document) (entry : Yaml.Value × Yaml.Value) :
    Except LoadError Assignment := do
  let field? :=
    match entry.1 with
    | .text name => name.toString?.bind Field.ofName?
    | _ => none
  match field? with
  | some field => field.assignValue d entry.2
  | none => do
    let key ← (d.text entry.1).mapError .value
    throw (.settings (.unknownSetting path key))

/-- The assignments of a document, up to the first error.  An empty document makes none. -/
def readLayer (path : String) (d : Yaml.Document) : Except LoadError (List Assignment) :=
  match d.root with
  | .null => .ok []
  | .collection .mapping node =>
    match d.contentsOf node with
    | .pairs entries => entries.mapM (readEntry path d)
    | _ => .ok []
  | _ => .error (.settings (.notAMapping path))

/-- The assignments of the text of a settings file; `complaint` is what is said of one that is no
YAML. -/
def readSettingsText (path : String) (complaint : LooseText) (text : Yaml.Source) :
    Except LoadError (List Assignment) :=
  match Yaml.read text with
  | .ok d => readLayer path d
  | .error .malformed => .error (.settings (.invalidYaml path complaint))
  | .error .notUtf8 => .error .notUtf8
  | .error e => .error (.value e)

/-- The assignments of the settings file at a path. -/
def loadSettingsFile (w : Workplace) (path : String) : Except LoadError (List Assignment) :=
  if !Workplace.validPath path then .error .nulInPath
  else
    match w.read path with
    | .error cause => .error (.settings (.unreadable path cause))
    | .ok content => readSettingsText path (w.yamlComplaint path content) (.ofBytes content)

end Brainfuck
