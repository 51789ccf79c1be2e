import Brainfuck.Environment.DotEnv
import Brainfuck.Settings.File

/-! # Layers of settings

Settings come in layers, each over the one before: the defaults, a settings file, the
environment, and what was asked for explicitly.  The outcome of each layer has to satisfy
every condition before the next one is looked at.

* `Settings.layered` — puts layers over the defaults in order, the first error being the
  outcome;
* `loadSettings` — the settings of a workplace, with its variable file.
-/

namespace Brainfuck

namespace Settings

/-- Puts a layer over settings; a layer that could not be read, and an outcome that violates
a condition, are errors. -/
def addLayer (s : Settings) (layer : Except LoadError (List Assignment)) :
    Except LoadError Settings := do
  let assignments ← layer
  (s.overlay assignments).mapError fun v => .settings (.violation v)

/-- Puts layers over the defaults, in order. -/
def layered (layers : List (Except LoadError (List Assignment))) : Except LoadError Settings :=
  layers.foldlM addLayer {}

end Settings

/-- What settings are made from. -/
structure SettingsSources where
  /-- The settings file; no file, or an empty path, stands for none. -/
  path : Option String
  /-- The environment that is asked, if it is not that of the process. -/
  given : Option Environment
  /-- Whether the variable file is taken over into the environment of the process. -/
  variableFile : Bool
  overrides : List Assignment

/-- The layers of settings below what was asked for explicitly. -/
def SettingsSources.layers (sources : SettingsSources) (w : Workplace) (env : Environment) :
    List (Except LoadError (List Assignment)) :=
  let file :=
    match sources.path with
    | none => []
    | some path => if path.isEmpty then [] else [loadSettingsFile w path]
  let surroundings := (sources.given.getD env).layer.mapError LoadError.settings
  file ++ [surroundings] ++ (if sources.overrides.isEmpty then [] else [.ok sources.overrides])

/-- The settings of a workplace and the environment of a process, with the reports on bad
lines of the variable file. -/
def loadSettings (w : Workplace) (process : Environment) (sources : SettingsSources) :
    List String × Except LoadError Settings :=
  let (warnings, env) :=
    if sources.variableFile then DotEnv.load w process else ([], .ok process)
  match env with
  | .error .notUtf8 => (warnings, .error .variableFileNotUtf8)
  | .error .badVariable => (warnings, .error .badVariable)
  | .ok env => (warnings, Settings.layered (sources.layers w env))

end Brainfuck
