import Brainfuck.CommandLine.Request
import Brainfuck.Machine.Source
import Brainfuck.Settings.Layers
import Brainfuck.Shell.Session

/-! # The command line

What the program does for given arguments, in a given workplace and environment and on given
input.

* `Ending` — how it ends;
* `Outcome` — what it leaves behind: output, reports, trace and ending;
* `commandLine` — all of it.
-/

namespace Brainfuck

namespace CommandLine

/-- A mistake that is told to the user. -/
inductive Complaint where
  | usage (e : UsageError)
  | settings (e : SettingsError)
  | file (e : ProgramFileError)
  | failure (f : Failure)
  deriving DecidableEq, Repr

/-- The mistake as it is told, whole lines of it. -/
def Complaint.text : Complaint → String
  | usage e => s!"{usageLine}trbbfi: error: {e.message}\n"
  | settings e => s!"Error: {e.message.escaped}\n"
  | file e => s!"Error: {e.message.escaped}\n"
  | failure f => s!"Error: {f.message}\n"

def Complaint.status : Complaint → Nat
  | usage _ => 2
  | settings _ => 1
  | file _ => 1
  | failure _ => 1

/-- What breaks the program off without a word to the user. -/
inductive Breakdown where
  | settings (e : LoadError)
  | run (e : RunError)
  | session (e : Interruption)
  deriving DecidableEq, Repr

inductive Ending where
  | done
  | complaint (c : Complaint)
  | breakdown (b : Breakdown)
  deriving DecidableEq, Repr

/-- The exit status of an ending; a breakdown has none of its own. -/
def Ending.status? : Ending → Option Nat
  | done => some 0
  | complaint c => some c.status
  | breakdown _ => none

structure Outcome where
  /-- The reports on bad lines of the variable file. -/
  warnings : List String
  output : List UInt8
  trace : List TraceRecord
  ending : Ending
  deriving DecidableEq, Repr

/-- What reaches the standard error ahead of a complaint. -/
def Outcome.notices (o : Outcome) : String :=
  String.join (o.warnings.map (· ++ "\n")) ++ traceText o.trace

/-- All that reaches the standard error. -/
def Outcome.errors (o : Outcome) : String :=
  match o.ending with
  | .complaint c => o.notices ++ c.text
  | _ => o.notices

/-- An outcome that is only an answer. -/
def Outcome.saying (text : String) : Outcome :=
  ⟨[], Utf8.bytesOf text, [], .done⟩

def Outcome.ended (ending : Ending) : Outcome :=
  ⟨[], [], [], ending⟩

def Outcome.ofRun : Except RunError RunOutcome → Outcome
  | .ok run =>
    let ending :=
      match run.report.failure with
      | none => .done
      | some f => .complaint (.failure f)
    ⟨[], run.output, run.trace, ending⟩
  | .error (.file (.badPath fault)) => .ended (.breakdown (.run (.file (.badPath fault))))
  | .error (.file e) => .ended (.complaint (.file e))
  | .error e => .ended (.breakdown (.run e))

def Outcome.ofSession (session : SessionOutcome) : Outcome :=
  let ending :=
    match session.interruption with
    | none => .done
    | some e => .breakdown (.session e)
  ⟨[], (session.writes.map Write.bytes).flatten, session.shell.machine.trace.toList, ending⟩

/-- A session on the input of the program. -/
def runSession (fuel : Nat) (w : Workplace) (input : List UInt8) (s : Settings) : Outcome :=
  match Machine.ofSettings? s (.bytes input) with
  | .error e => .ended (.breakdown (.run (.tape e)))
  | .ok machine => .ofSession ((Shell.start s machine).session fuel w .shared)

/-- Runs what an invocation names, under settings. -/
def Invocation.perform (fuel : Nat) (w : Workplace) (input : List UInt8) (s : Settings)
    (i : Invocation) : Outcome :=
  match i.code, i.file with
  | some code, _ => .ofRun (runProgram fuel (Program.ofText code) input false s)
  | none, some path => .ofRun (runFile fuel w path input s)
  | none, none => runSession fuel w input s

/-- What the settings of an invocation are made from. -/
def Invocation.sources (i : Invocation) : SettingsSources where
  path := i.config
  given := none
  variableFile := true
  overrides := if i.debug then [.debug true] else []

/-- Finds the settings of an invocation and runs it under them. -/
def Invocation.run (fuel : Nat) (w : Workplace) (env : Environment) (input : List UInt8)
    (i : Invocation) : Outcome :=
  let (warnings, settings) := loadSettings w env i.sources
  let outcome :=
    match settings with
    | .ok s => i.perform fuel w input s
    | .error (.settings e) => .ended (.complaint (.settings e))
    | .error e => .ended (.breakdown (.settings e))
  { outcome with warnings := warnings }

end CommandLine

/-- What the program does for given arguments. -/
def commandLine (fuel : Nat) (w : Workplace) (env : Environment) (input : List UInt8)
    (arguments : List String) : CommandLine.Outcome :=
  match CommandLine.Request.ofArguments arguments with
  | .error e => .ended (.complaint (.usage e))
  | .ok .help => .saying CommandLine.helpText
  | .ok .version => .saying CommandLine.versionText
  | .ok (.run i) => i.run fuel w env input

end Brainfuck
