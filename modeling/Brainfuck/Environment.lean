import Brainfuck.Settings.Coercion

/-! # The environment

Named texts that a process starts with, and the settings among them.

* `Environment.get?` — the text of a variable;
* `Environment.layer` — the settings that an environment gives, in field order.
-/

namespace Brainfuck

/-- Variables with their texts; the first entry of a name counts. -/
abbrev Environment := List (String × LooseText)

namespace Environment

def get? (env : Environment) (name : String) : Option LooseText :=
  List.lookup name env

/-- The assignment that an environment makes to a field, if it makes one. -/
def assignment? (env : Environment) (field : Field) :
    Except SettingsError (Option Assignment) :=
  match env.get? field.variableName with
  | none => .ok none
  | some text =>
    match field.assignText field.variableName text with
    | .ok a => .ok (some a)
    | .error e => .error e

/-- The settings of an environment, in field order, up to the first bad value. -/
def layer (env : Environment) : Except SettingsError (List Assignment) := do
  let found ← Field.all.mapM env.assignment?
  return found.filterMap id

end Environment

end Brainfuck
