import Brainfuck.CommandLine.Argument

/-! # Requests

What the arguments ask for, taken together.

* `Invocation` — a program to run, and how;
* `Flag.unbundle` — the flags that one argument bundles, the last with its value;
* `Request.ofArguments` — what is asked for, or what is wrong with the arguments.

Everything is done in the order of the arguments, so that a call for help counts if it comes
before a mistake, but arguments without a use are told only at the end.

The rules are those of the option parser before its release 3.11.9.  There two dashes that are
attached to a flag are dropped, and a letter of a bundle that is no flag is, with all behind it, a
value that its flag cannot use.  Later releases keep the two dashes as the value, and tell of the
letter as an argument without a use.
-/

namespace Brainfuck.CommandLine

/-- What is to be run.  A text counts more than a file, and without any there is a session. -/
structure Invocation where
  file : Option String := none
  code : Option String := none
  debug : Bool := false
  config : Option String := none
  deriving DecidableEq, Repr

inductive Request where
  | help
  | version
  | run (invocation : Invocation)
  deriving DecidableEq, Repr

/-- The value that a text attached to a flag stands for: two dashes stand for nothing, as they did
before release 3.11.9 of the parser. -/
def attachedValue (cs : List Char) : String :=
  if cs = ['-', '-'] then "" else String.ofList cs

/-- Flags that one argument asks for: some without a value, and a last one, with the text
attached to it. -/
structure Bundle where
  before : List Flag
  last : Flag
  attached : Option (List Char)
  deriving DecidableEq, Repr

/-- Takes a bundle apart whose first flag is called by its letter: what is attached to a flag
without a value are letters of further ones.  An unknown letter is an error at once, as it was
before release 3.11.9 of the parser. -/
def Flag.unbundle (f : Flag) : List Char → Except UsageError Bundle
  | [] => .error (.unusedValue f "")
  | letter :: attached =>
    match Flag.ofLetter? letter with
    | none => .error (.unusedValue f (String.ofList (letter :: attached)))
    | some g =>
      if attached = [] then .ok ⟨[f], g, none⟩
      else if g.takesValue then .ok ⟨[f], g, some attached⟩
      else do
        let bundle ← g.unbundle attached
        return { bundle with before := f :: bundle.before }

def Flag.bundle (f : Flag) (lettered : Bool) : Option (List Char) → Except UsageError Bundle
  | none => .ok ⟨[], f, none⟩
  | some attached =>
    if f.takesValue then .ok ⟨[], f, some attached⟩
    else if lettered then f.unbundle attached
    else .error (.unusedValue f (String.ofList attached))

/-- Adds a flag with its value to an invocation.  A flag that answers at once is the whole
request. -/
def Invocation.take (i : Invocation) (f : Flag) (value : String) : Except Request Invocation :=
  match f with
  | .help => .error .help
  | .version => .error .version
  | .debug => .ok { i with debug := true }
  | .code => .ok { i with code := some value }
  | .config => .ok { i with config := some value }

/-- Adds the flags of a bundle, the last with its value. -/
def Invocation.takeAll (i : Invocation) (b : Bundle) (value : String) :
    Except Request Invocation := do
  let i ← b.before.foldlM (fun i f => i.take f "") i
  i.take b.last value

namespace Request

/-- Goes through the arguments; `unused` are those without a use so far, in reverse.  The
value of a flag is what is attached to it, or else the next argument, which has to be plain.
The first plain argument is the file, and a separator before or behind it goes with it. -/
def gather : List Argument → (unused : List String) → Invocation → Except UsageError Request
  | [], unused, i =>
    if unused.isEmpty then .ok (.run i) else .error (.unrecognized unused.reverse)
  | .plain text :: rest, unused, i =>
    if i.file.isSome then gather rest (text :: unused) i
    else
      match rest with
      | .separator :: rest => gather rest unused { i with file := some text }
      | rest => gather rest unused { i with file := some text }
  | .separator :: rest, unused, i =>
    if i.file.isSome then gather rest ("--" :: unused) i else gather rest unused i
  | .unknown text :: rest, unused, i => gather rest (text :: unused) i
  | .flag f lettered attached :: rest, unused, i =>
    match f.bundle lettered attached with
    | .error e => .error e
    | .ok bundle =>
      match bundle.attached, bundle.last.takesValue, rest with
      | some attached, _, rest =>
        match i.takeAll bundle (attachedValue attached) with
        | .error request => .ok request
        | .ok i => gather rest unused i
      | none, false, rest =>
        match i.takeAll bundle "" with
        | .error request => .ok request
        | .ok i => gather rest unused i
      | none, true, .plain value :: rest =>
        match i.takeAll bundle value with
        | .error request => .ok request
        | .ok i => gather rest unused i
      | none, true, _ => .error (.missingValue bundle.last)

/-- What arguments ask for. -/
def ofArguments (arguments : List String) : Except UsageError Request := do
  gather (← Argument.ofTexts arguments) [] {}

end Request

end Brainfuck.CommandLine
