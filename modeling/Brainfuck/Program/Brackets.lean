import Brainfuck.Program

/-! # Brackets

Loops are written with brackets, which have to pair up.

* `openPositions` — reads a stream from the left and keeps the positions of the loops that
  are still open, innermost first; it stops at the first bracket that closes nothing;
* `Program.checkBrackets` — a program is accepted when no loop is left open;
* `Program.closeOf?` — the position of the bracket that closes a loop, found by counting
  the depth forward from its opening.
-/

namespace Brainfuck

/-- Why the brackets of a program do not pair up, with the position of the bracket. -/
inductive BracketError where
  | unmatchedClose (position : Nat)
  | unmatchedOpen (position : Nat)
  deriving DecidableEq, Repr

namespace BracketError

def position : BracketError → Nat
  | unmatchedClose p => p
  | unmatchedOpen p => p

def message : BracketError → String
  | unmatchedClose p => s!"Unmatched ']' at position {p}"
  | unmatchedOpen p => s!"Unmatched '[' at position {p}"

end BracketError

/-- Reads a stream whose first instruction stands at `position`, with the loops in `opened`
still open (innermost first).  The answer is the list of loops open at the end, or the
position of a closing bracket that closes nothing. -/
def openPositions : List Instruction → Nat → List Nat → Except Nat (List Nat)
  | [], _, opened => .ok opened
  | .openLoop :: rest, position, opened => openPositions rest (position + 1) (position :: opened)
  | .closeLoop :: _, position, [] => .error position
  | .closeLoop :: rest, position, _ :: outer => openPositions rest (position + 1) outer
  | _ :: rest, position, opened => openPositions rest (position + 1) opened

/-- A stream is read piece by piece. -/
theorem openPositions_append (first second : List Instruction) (position : Nat)
    (opened : List Nat) :
    openPositions (first ++ second) position opened =
      (openPositions first position opened).bind
        (openPositions second (position + first.length)) := by
  induction first generalizing position opened with
  | nil => rfl
  | cons i rest ih =>
    have shift : position + 1 + rest.length = position + (rest.length + 1) := by omega
    cases i with
    | openLoop => simpa [openPositions, shift] using ih (position + 1) (position :: opened)
    | closeLoop =>
      cases opened with
      | nil => rfl
      | cons _ outer => simpa [openPositions, shift] using ih (position + 1) outer
    | _ => simpa [openPositions, shift] using ih (position + 1) opened

namespace Program

/-- Accepts a program whose brackets pair up.  A bracket that closes nothing is reported
first; else the innermost loop that is left open. -/
def checkBrackets (p : Program) : Except BracketError Unit :=
  match openPositions p.toList 0 [] with
  | .error position => .error (.unmatchedClose position)
  | .ok [] => .ok ()
  | .ok (position :: _) => .error (.unmatchedOpen position)

theorem checkBrackets_eq_ok_iff_openPositions {p : Program} :
    p.checkBrackets = .ok () ↔ openPositions p.toList 0 [] = .ok [] := by
  rw [checkBrackets]
  constructor
  · intro accepted
    split at accepted
    · cases accepted
    · assumption
    · cases accepted
  · intro scanned
    rw [scanned]

def balanced (p : Program) : Bool :=
  match p.checkBrackets with
  | .ok _ => true
  | .error _ => false

/-- Looks at `bound` instructions from `position` on for the bracket that closes the
outermost of `depth` open loops. -/
def closeFrom (p : Program) : (bound position depth : Nat) → Option Nat
  | 0, _, _ => none
  | bound + 1, position, depth =>
    match p[position]? with
    | none => none
    | some .openLoop => closeFrom p bound (position + 1) (depth + 1)
    | some .closeLoop =>
      if depth ≤ 1 then some position else closeFrom p bound (position + 1) (depth - 1)
    | some _ => closeFrom p bound (position + 1) depth

/-- The bracket that closes the loop opened at `position`, if there is one. -/
def closeOf? (p : Program) (position : Nat) : Option Nat :=
  p.closeFrom p.size (position + 1) 1

end Program

end Brainfuck
