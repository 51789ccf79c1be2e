import Brainfuck.CommandLine.Flag
import Brainfuck.Text.Digit
import Brainfuck.Text.Quoted

/-! # Arguments

What each argument is, by itself: a plain one, a flag with or without a value attached to it,
a pair of dashes, or something that looks like a flag and is none.

* `UsageError` — what can be wrong with arguments, with its wording;
* `Argument.ofText` — what an argument is;
* `Argument.ofTexts` — the same for all arguments; behind a pair of dashes all are plain.
-/

namespace Brainfuck.CommandLine

inductive UsageError where
  /-- The start of more than one name. -/
  | ambiguous (argument : String) (names : List FlagName)
  | missingValue (flag : Flag)
  /-- A value attached to a flag that takes none. -/
  | unusedValue (flag : Flag) (value : String)
  | unrecognized (arguments : List String)
  deriving DecidableEq, Repr

def UsageError.message : UsageError → String
  | ambiguous argument names =>
    s!"ambiguous option: {argument} could match " ++ ", ".intercalate (names.map FlagName.text)
  | missingValue flag => s!"argument {flag.title}: expected one argument"
  | unusedValue flag value =>
    s!"argument {flag.title}: ignored explicit argument {Text.quoted value}"
  | unrecognized arguments => "unrecognized arguments: " ++ " ".intercalate arguments

/-- What an argument is. -/
inductive Argument where
  | plain (text : String)
  /-- Two dashes, behind which every argument is plain. -/
  | separator
  /-- A flag; `lettered` if it was called by its letter, and with the text that was attached
  to it. -/
  | flag (flag : Flag) (lettered : Bool) (attached : Option (List Char))
  | unknown (text : String)
  deriving DecidableEq, Repr

def isAnyDigit (c : Char) : Bool :=
  (Text.digitValue? c).isSome

/-- Whether a text is a dash with a number behind it: digits, or a point with digits behind
it and maybe before it.  A line end may follow. -/
def isNegativeNumber (cs : List Char) : Bool :=
  match cs with
  | '-' :: cs =>
    let rest := cs.dropWhile isAnyDigit
    let ended (cs : List Char) : Bool := cs = [] || cs = ['\n']
    match rest with
    | '.' :: fraction =>
      let tail := fraction.dropWhile isAnyDigit
      (fraction.head?.any isAnyDigit) && ended tail
    | _ => cs.head?.any isAnyDigit && ended rest
  | _ => false

def splitAtEquals (cs : List Char) : List Char × Option (List Char) :=
  match cs.dropWhile (· ≠ '=') with
  | [] => (cs, none)
  | _ :: value => (cs.takeWhile (· ≠ '='), some value)

namespace Argument

/-- A flag under one of its names. -/
def called (name : FlagName) (f : Flag) (attached : Option (List Char)) : Argument :=
  match name with
  | .letter _ => .flag f true attached
  | .word _ => .flag f false attached

/-- The flag that an argument behind two dashes is the start of. -/
def ofWord (text : String) : Except UsageError (Option Argument) :=
  let (start, attached) := splitAtEquals text.toList
  match Flag.completions (String.ofList start) with
  | [] => .ok none
  | [(name, f)] => .ok (some (called name f attached))
  | several => .error (.ambiguous text (several.map Prod.fst))

/-- The flag that an argument behind one dash starts with. -/
def ofLetters : List Char → Option Argument
  | '-' :: letter :: attached =>
    (Flag.ofLetter? letter).map fun f => .flag f true (some attached)
  | _ => none

/-- What an argument with a dash is that is no name, alone or with a value. -/
def ofDashes (text : String) : Except UsageError Argument := do
  let cs := text.toList
  let found ←
    match cs with
    | '-' :: '-' :: _ => ofWord text
    | _ => .ok (ofLetters cs)
  match found with
  | some argument => return argument
  | none =>
    if isNegativeNumber cs || cs.contains ' ' then return .plain text
    else return .unknown text

/-- What an argument is.  A dash alone, a negative number, and what has a blank and is no
flag are plain. -/
def ofText (text : String) : Except UsageError Argument :=
  match text.toList with
  | [] => .ok (.plain text)
  | ['-'] => .ok (.plain text)
  | '-' :: _ =>
    match Flag.ofName? text with
    | some (name, f) => .ok (called name f none)
    | none =>
      match splitAtEquals text.toList with
      | (start, some value) =>
        match Flag.ofName? (String.ofList start) with
        | some (name, f) => .ok (called name f (some value))
        | none => ofDashes text
      | (_, none) => ofDashes text
  | _ => .ok (.plain text)

/-- What all arguments are. -/
def ofTexts : List String → Except UsageError (List Argument)
  | [] => .ok []
  | text :: rest =>
    if text = "--" then .ok (.separator :: rest.map .plain)
    else do
      let argument ← ofText text
      let arguments ← ofTexts rest
      return argument :: arguments

end Argument

end Brainfuck.CommandLine
