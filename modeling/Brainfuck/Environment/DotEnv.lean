import Brainfuck.Environment
import Brainfuck.Files
import Brainfuck.Text.Lines

/-! # Variable files

A file named `.env` adds variables to an environment, one `NAME=value` a line.  The grammar
knows an `export` in front, quoted names, values in single or double quotes with escapes and
line breaks, comments, and references `${NAME}` and `${NAME:-default}` to other variables.  A
line that does not fit the grammar is skipped and reported.

* `DotEnv.statements` — the statements of a file, each with the line it starts in;
* `DotEnv.resolve` — the references in the values replaced, as far as the environment goes;
* `DotEnv.extend` — the environment with the new variables; those it has are kept.
-/

namespace Brainfuck.DotEnv

structure Statement where
  /-- The name, if the statement is not just blank or a comment. -/
  name : Option String
  /-- The text behind the equals sign, if there is one. -/
  value : Option String
  /-- The line in which the statement starts, from 1. -/
  line : Nat
  wellFormed : Bool
  deriving DecidableEq, Repr

def isLineEnd (c : Char) : Bool :=
  c == '\n' || c == '\r'

/-- Whether a character is a blank inside a line. -/
def isSpace (c : Char) : Bool :=
  Text.isBlank c && !isLineEnd c

/-- Drops blanks inside a line. -/
def skipSpace (cs : List Char) : List Char :=
  cs.dropWhile isSpace

def skipLineEnd : List Char → List Char
  | '\r' :: '\n' :: rest => rest
  | '\n' :: rest => rest
  | '\r' :: rest => rest
  | cs => cs

/-- Drops everything up to and with the end of the line. -/
def skipLine (cs : List Char) : List Char :=
  skipLineEnd (cs.dropWhile fun c => !isLineEnd c)

/-- Drops the word `export` where blanks follow it. -/
def skipExport (cs : List Char) : List Char :=
  match cs with
  | 'e' :: 'x' :: 'p' :: 'o' :: 'r' :: 't' :: c :: rest =>
    if isSpace c then skipSpace rest else cs
  | _ => cs

/-- Reads a name: in single quotes, or up to a blank, an equals sign or a comment.  A comment
has no name.  The outer `none` means that there is no name where there should be one. -/
def readName (cs : List Char) : Option (Option (List Char) × List Char) :=
  match cs with
  | '#' :: _ => some (none, cs)
  | '\'' :: rest =>
    let name := rest.takeWhile (· != '\'')
    match rest.dropWhile (· != '\'') with
    | _ :: after => if name.isEmpty then none else some (some name, after)
    | [] => none
  | _ =>
    let isNameChar (c : Char) : Bool := c != '=' && c != '#' && !Text.isBlank c
    let name := cs.takeWhile isNameChar
    if name.isEmpty then none else some (some name, cs.dropWhile isNameChar)

/-- Reads up to the closing quote; a backslash takes the character behind it along.  `done`
holds what was read, in reverse. -/
def readQuoted (mark : Char) : (done : List Char) → List Char → Option (List Char × List Char)
  | _, [] => none
  | done, [c] => if c = mark then some (done.reverse, []) else none
  | done, c :: d :: rest =>
    if c = mark then some (done.reverse, d :: rest)
    else if c = '\\' then readQuoted mark (d :: c :: done) rest
    else readQuoted mark (c :: done) (d :: rest)

/-- The character that an escape stands for, inside single or double quotes. -/
def escape? (mark c : Char) : Option Char :=
  if c = '\\' ∨ c = '\'' then some c
  else if mark = '"' then
    match c with
    | '"' => some '"'
    | 'a' => some '\x07'
    | 'b' => some '\x08'
    | 'f' => some '\x0C'
    | 'n' => some '\n'
    | 'r' => some '\r'
    | 't' => some '\t'
    | 'v' => some '\x0B'
    | _ => none
  else none

/-- Replaces the escapes of a quoted value. -/
def unescape (mark : Char) : List Char → List Char
  | [] => []
  | [c] => [c]
  | c :: d :: rest =>
    if c = '\\' then
      match escape? mark d with
      | some e => e :: unescape mark rest
      | none => c :: unescape mark (d :: rest)
    else c :: unescape mark (d :: rest)

/-- Cuts a comment off an unquoted value: it starts at the first blanks that a `#` follows.
`done` holds what was read, in reverse, without the blanks `gap` that were just passed. -/
def cutComment (done gap : List Char) : List Char → List Char
  | [] => (gap ++ done).reverse
  | c :: rest =>
    if Text.isBlank c then cutComment done (c :: gap) rest
    else if c = '#' ∧ !gap.isEmpty then done.reverse
    else cutComment (c :: (gap ++ done)) [] rest

/-- Reads a value behind the blanks `gap` that follow the equals sign; `none` when a quote is
not closed. -/
def readValue (gap cs : List Char) : Option (List Char × List Char) :=
  match cs with
  | [] => some ([], [])
  | c :: rest =>
    if c = '\'' ∨ c = '"' then
      (readQuoted c [] rest).map fun (value, after) => (unescape c value, after)
    else if isLineEnd c then some ([], cs)
    else
      let line := cs.takeWhile fun c => !isLineEnd c
      some (Text.trim (cutComment [] gap line), cs.dropWhile fun c => !isLineEnd c)

/-- Drops a comment and the end of the line; `none` when something else stands there. -/
def finishLine (cs : List Char) : Option (List Char) :=
  let cs :=
    match skipSpace cs with
    | '#' :: rest => rest.dropWhile fun c => !isLineEnd c
    | _ => cs
  match skipSpace cs with
  | [] => some []
  | c :: rest => if isLineEnd c then some (skipLineEnd (c :: rest)) else none

/-- Reads one statement: name, value and rest, or the place where it went wrong. -/
def readStatement (cs : List Char) :
    Except (List Char) (Option (List Char) × Option (List Char) × List Char) :=
  let cs := cs.dropWhile Text.isBlank
  if cs.isEmpty then .ok (none, none, [])
  else
    let cs := skipExport cs
    match readName cs with
    | none => .error cs
    | some (name, cs) =>
      match skipSpace cs with
      | '=' :: rest =>
        let cs := skipSpace rest
        match readValue (rest.takeWhile isSpace) cs with
        | none => .error cs
        | some (value, cs) =>
          match finishLine cs with
          | none => .error cs
          | some after => .ok (name, some value, after)
      | cs =>
        match finishLine cs with
        | none => .error cs
        | some after => .ok (name, none, after)

def lineEnds (cs : List Char) : Nat :=
  cs.count '\n'

/-- Reads statements from the given line on, `bound` of them at most. -/
def statementsFrom : (bound line : Nat) → List Char → List Statement
  | 0, _, _ => []
  | _, _, [] => []
  | bound + 1, line, cs =>
    let (statement, rest) : Statement × List Char :=
      match readStatement cs with
      | .ok (name, value, rest) =>
        (⟨name.map String.ofList, value.map String.ofList, line, true⟩, rest)
      | .error rest => (⟨none, none, line, false⟩, skipLine rest)
    statement :: statementsFrom bound (line + (lineEnds cs - lineEnds rest)) rest

def statements (cs : List Char) : List Statement :=
  statementsFrom (cs.length + 1) 1 cs

/-- A part of a value: text, or a reference with what stands for an unset variable. -/
inductive Part where
  | text (c : Char)
  | reference (name : String) (fallback : Option String)
  deriving DecidableEq, Repr

/-- Reads a reference behind its `${`: the name, the default, and the rest. -/
def readReference (cs : List Char) : Option (String × Option String × List Char) :=
  let isNameChar (c : Char) : Bool := c != '\x7d' && c != ':'
  let name := String.ofList (cs.takeWhile isNameChar)
  match cs.dropWhile isNameChar with
  | ':' :: '-' :: rest =>
    let fallback := String.ofList (rest.takeWhile (· != '\x7d'))
    match rest.dropWhile (· != '\x7d') with
    | _ :: after => some (name, some fallback, after)
    | [] => none
  | '\x7d' :: after => some (name, none, after)
  | _ => none

/-- The parts of a value, `bound` of them at most. -/
def partsOf : (bound : Nat) → List Char → List Part
  | 0, _ => []
  | _, [] => []
  | bound + 1, '$' :: '\x7b' :: rest =>
    match readReference rest with
    | some (name, fallback, after) => .reference name fallback :: partsOf bound after
    | none => .text '$' :: partsOf bound ('\x7b' :: rest)
  | bound + 1, c :: rest => .text c :: partsOf bound rest

/-- The names of variables that a statement refers to. -/
def Statement.references (s : Statement) : List String :=
  match s.value with
  | none => []
  | some value =>
    (partsOf (value.length + 1) value.toList).filterMap fun
      | .text _ => none
      | .reference name _ => some name

/-- Variables read so far; a variable without an equals sign has no text. -/
abbrev Bindings := List (String × Option LooseText)

/-- Binds a name; a name that is bound already keeps its place. -/
def bind (bindings : Bindings) (name : String) (value : Option LooseText) : Bindings :=
  if (bindings.any fun (n, _) => n == name) then
    bindings.map fun (n, v) => if n == name then (n, value) else (n, v)
  else bindings ++ [(name, value)]

/-- What a part of a value stands for: the environment comes before the variables of the
file, and a default only counts for a name that neither has. -/
def resolvePart (env : Environment) (bindings : Bindings) : Part → LooseText
  | .text c => ⟨[.char c]⟩
  | .reference name fallback =>
    match env.get? name with
    | some value => value
    | none =>
      match List.lookup name bindings with
      | some value => value.getD ⟨[]⟩
      | none => .ofString (fallback.getD "")

/-- The value with its references replaced. -/
def resolveValue (env : Environment) (bindings : Bindings) (value : String) : LooseText :=
  ⟨(partsOf (value.length + 1) value.toList).flatMap fun part =>
    (resolvePart env bindings part).points⟩

/-- The variables of a file with all references replaced, in the order of their names' first
appearance. -/
def resolve (env : Environment) (file : List Statement) : Bindings :=
  file.foldl
    (fun bindings s =>
      match s.name with
      | none => bindings
      | some name => bind bindings name (s.value.map (resolveValue env bindings)))
    []

/-- Why a variable file cannot be taken over. -/
inductive Error where
  | notUtf8
  /-- A name with an equals sign, or a name or text with the character NUL. -/
  | badVariable
  deriving DecidableEq, Repr

/-- Whether a variable can be put into an environment. -/
def validVariable (name : String) (value : LooseText) : Bool :=
  name.toList.all (fun c => c != '=' && c != '\x00') &&
    value.points.all (fun p => p != .char '\x00')

/-- Adds the variables that an environment does not have. -/
def extend (env : Environment) : Bindings → Except Error Environment
  | [] => .ok env
  | (_, none) :: rest => extend env rest
  | (name, some value) :: rest =>
    if (env.get? name).isSome then extend env rest
    else if validVariable name value then extend (env ++ [(name, value)]) rest
    else .error .badVariable

def fileName : String := ".env"

/-- The nearest variable file of a directory and those around it. -/
def find? (tree : FileTree) : (bound : Nat) → (directory : List String) → Option (List UInt8)
  | 0, _ => none
  | bound + 1, directory =>
    match tree.lookup (directory ++ [fileName]) with
    | some (.file content) => some content
    | _ => if directory.isEmpty then none else find? tree bound directory.dropLast

/-- The variable that turns variable files off. -/
def offSwitch : String := "PYTHON_DOTENV_DISABLED"

/-- The words that turn variable files off. -/
def offWords : List String := ["1", "true", "t", "yes", "y"]

/-- The small letter that counts as the same letter: the long s is an s too. -/
def foldCase (c : Char) : Char :=
  if c = 'ſ' then 's' else c.toLower

def isOff (env : Environment) : Bool :=
  match env.get? offSwitch with
  | none => false
  | some text =>
    match text.toString? with
    | none => false
    | some word => word.map foldCase ∈ offWords

/-- The report on a statement that does not fit the grammar. -/
def warning (s : Statement) : String :=
  s!"python-dotenv could not parse statement starting at line {s.line}"

/-- A text without the mark for the order of bytes that may stand in front. -/
def dropByteOrderMark : List Char → List Char
  | '\uFEFF' :: cs => cs
  | cs => cs

/-- The text of the nearest variable file of a workplace, if there is one. -/
def text? (w : Workplace) : Except Error (Option (List Char)) :=
  match find? w.tree (w.directory.length + 1) w.directory with
  | none => .ok none
  | some content =>
    match Utf8.decode? content with
    | none => .error .notUtf8
    | some cs => .ok (some (Text.unifyLineEnds (dropByteOrderMark cs)))

/-- Takes over the variable file of a workplace, if there is one and it is not turned off.
Reports come with the outcome, also where it is an error. -/
def load (w : Workplace) (env : Environment) : List String × Except Error Environment :=
  if isOff env then ([], .ok env)
  else
    match text? w with
    | .error e => ([], .error e)
    | .ok none => ([], .ok env)
    | .ok (some cs) =>
      let file := statements cs
      ((file.filter fun s => !s.wellFormed).map warning, extend env (resolve env file))

/-- The variables that the settings of a workplace can depend on. -/
def relevantNames (w : Workplace) : List String :=
  let own := offSwitch :: Field.all.map Field.variableName
  match text? w with
  | .ok (some cs) =>
    own ++ (statements cs).flatMap fun s => s.name.toList ++ s.references
  | _ => own

end Brainfuck.DotEnv
