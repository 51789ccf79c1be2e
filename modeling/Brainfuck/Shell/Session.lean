import Brainfuck.Shell
import Brainfuck.Text.Lines
import Brainfuck.Text.Utf8

/-! # Sessions

A session greets, then prompts for lines and handles them until one asks to leave or there
are no more.

* `Feed` — where the lines come from: the bytes that programs read too, or a text;
* `Shell.nextLine` — takes one line;
* `Shell.turn` — prompts, takes a line and handles it;
* `Shell.session` — the whole exchange.
-/

namespace Brainfuck

/-- Where the lines of a session come from. -/
inductive Feed where
  /-- The bytes of the program's input, so that a program reads on behind its command line. -/
  | shared
  /-- A text of its own. -/
  | text (rest : List Char)
  deriving DecidableEq, Repr

/-- How a session ended: in order, or in the middle of a command. -/
structure SessionOutcome where
  shell : Shell
  writes : List Write
  interruption : Option Interruption

namespace Shell

def banner : String :=
  "TRBBFI v1.0 - The Really Better Brainfuck Interpreter\nType 'help' for commands\n\n"

/-- Takes the next line with its line end; `none` when there is nothing left.  Ill-formed
parts of a line of bytes become replacement characters. -/
def nextLine (s : Shell) : Feed → Option (List Char × Shell × Feed)
  | .shared =>
    match s.machine.input with
    | .broken => none
    | .bytes [] => none
    | .bytes unread =>
      let (line, rest) := Text.splitLine 10 unread
      let machine := { s.machine with input := .bytes rest }
      some (Utf8.decodeLossy line, { s with machine := machine }, .shared)
  | .text [] => none
  | .text unread =>
    let (line, rest) := Text.splitLine '\n' unread
    some (line, s, .text rest)

/-- What is left to be read as lines. -/
def unreadLength (s : Shell) : Feed → Nat
  | .shared => s.machine.input.unread.length
  | .text rest => rest.length

inductive Turn where
  | next (shell : Shell) (feed : Feed) (writes : List Write)
  | over (shell : Shell) (writes : List Write)
  | interrupted (shell : Shell) (writes : List Write) (cause : Interruption)

/-- Takes a line behind a prompt and handles it. -/
def turnAfter (fuel : Nat) (w : Workplace) (s : Shell) (feed : Feed) (prompt : Write) : Turn :=
  match s.nextLine feed with
  | none => .over s [prompt, .text "\nBye!\nGoodbye!\n"]
  | some (line, s, feed) =>
    match s.handle fuel w (.ofChars line) with
    | .error cause => .interrupted s [prompt] cause
    | .ok reply =>
      if reply.keep then .next reply.shell feed (prompt :: reply.writes)
      else .over reply.shell (prompt :: reply.writes ++ [.text "Goodbye!\n"])

/-- Prompts, takes a line and handles it. -/
def turn (fuel : Nat) (w : Workplace) (s : Shell) (feed : Feed) : Turn :=
  match s.settings.prompt.toString? with
  | none => .interrupted s [] .unwritablePrompt
  | some prompt => s.turnAfter fuel w feed (.text prompt)

/-- Takes turns, `rounds` of them at most; `written` is what was written so far, in reverse. -/
def converse (fuel : Nat) (w : Workplace) :
    (rounds : Nat) → (written : List Write) → Shell → Feed → SessionOutcome
  | 0, written, s, _ => ⟨s, written.reverse, none⟩
  | rounds + 1, written, s, feed =>
    match s.turn fuel w feed with
    | .next s feed writes => converse fuel w rounds (writes.reverse ++ written) s feed
    | .over s writes => ⟨s, (writes.reverse ++ written).reverse, none⟩
    | .interrupted s writes cause => ⟨s, (writes.reverse ++ written).reverse, some cause⟩

/-- A session from the greeting to the end.  Every line has at least one element, so there
are no more rounds than elements, and one for the end. -/
def session (fuel : Nat) (w : Workplace) (s : Shell) (feed : Feed) : SessionOutcome :=
  converse fuel w (s.unreadLength feed + 1) [.text banner] s feed

end Shell

/-- The bytes that reach the standard output, in the order in which they were written.  A session
writes no halves of surrogate pairs, for its lines have none, and no prompt with one is written. -/
def Write.bytes : Write → List UInt8
  | .text s => Utf8.bytesOf s.escaped
  | .program bs => bs

end Brainfuck
