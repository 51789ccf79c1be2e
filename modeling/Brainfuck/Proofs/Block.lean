import Brainfuck.Program.Brackets
import Mathlib.Logic.ExistsUnique

/-! # Blocks

A program whose brackets pair up, read as a tree of plain commands and loops.

* `PlainCommand` — the instructions that are not brackets;
* `Block`, `Block.code` — a sequence of commands and loops, and the stream it is written as;
* `checkBrackets_eq_ok_iff_block` — the accepted programs are the ones that some block is written
  as, and it is one block only.
-/

namespace Brainfuck

/-- The instructions that are not brackets. -/
inductive PlainCommand where
  | moveRight
  | moveLeft
  | increment
  | decrement
  | output
  | input
  deriving DecidableEq, Repr

def PlainCommand.instruction : PlainCommand → Instruction
  | moveRight => .moveRight
  | moveLeft => .moveLeft
  | increment => .increment
  | decrement => .decrement
  | output => .output
  | input => .input

/-- A sequence of commands and loops, from the left. -/
inductive Block where
  | nil
  | command (c : PlainCommand) (rest : Block)
  | loop (body rest : Block)
  deriving DecidableEq, Repr

/-- The stream of instructions that a block is written as. -/
def Block.code : Block → List Instruction
  | nil => []
  | command c rest => c.instruction :: rest.code
  | loop body rest => .openLoop :: (body.code ++ .closeLoop :: rest.code)

namespace PlainCommand

theorem instruction_injective {c d : PlainCommand} (h : c.instruction = d.instruction) : c = d := by
  cases c <;> cases d <;> first | rfl | cases h

theorem instruction_ne_openLoop (c : PlainCommand) : c.instruction ≠ .openLoop := by
  cases c <;> exact Instruction.noConfusion

theorem instruction_ne_closeLoop (c : PlainCommand) : c.instruction ≠ .closeLoop := by
  cases c <;> exact Instruction.noConfusion

theorem exists_instruction_eq {i : Instruction} (notOpen : i ≠ .openLoop)
    (notClose : i ≠ .closeLoop) : ∃ c : PlainCommand, c.instruction = i := by
  cases i with
  | moveRight => exact ⟨.moveRight, rfl⟩
  | moveLeft => exact ⟨.moveLeft, rfl⟩
  | increment => exact ⟨.increment, rfl⟩
  | decrement => exact ⟨.decrement, rfl⟩
  | output => exact ⟨.output, rfl⟩
  | input => exact ⟨.input, rfl⟩
  | openLoop => contradiction
  | closeLoop => contradiction

theorem openPositions_instruction (c : PlainCommand) (rest : List Instruction) (position : Nat)
    (opened : List Nat) :
    openPositions (c.instruction :: rest) position opened =
      openPositions rest (position + 1) opened := by
  cases c <;> rfl

end PlainCommand

namespace Block

/-! ## One block for one stream -/

/-- A stream that no block can take anything from: it is over, or closes a loop around. -/
def Over (code : List Instruction) : Prop :=
  ∀ i, code.head? = some i → i = .closeLoop

theorem over_nil : Over [] := fun _ h => nomatch h

theorem over_closeLoop (code : List Instruction) : Over (.closeLoop :: code) :=
  fun _ h => (Option.some.inj h).symm

/-- A block is read off the front of a stream in one way only. -/
theorem code_append_inj {b b' : Block} {rest rest' : List Instruction} (ended : Over rest)
    (ended' : Over rest') (same : b.code ++ rest = b'.code ++ rest') : b = b' ∧ rest = rest' := by
  induction b generalizing b' rest rest' with
  | nil =>
    -- what is left over is no command and no loop, so the other block is over too
    cases b' with
    | nil => exact ⟨rfl, same⟩
    | command c _ =>
      rw [code, List.nil_append] at same
      exact absurd (ended _ (by rw [same]; rfl)) c.instruction_ne_closeLoop
    | loop _ _ =>
      rw [code, List.nil_append] at same
      cases ended .openLoop (by rw [same]; rfl)
  | command c b ih =>
    cases b' with
    | nil =>
      rw [code, code, List.nil_append] at same
      exact absurd (ended' _ (by rw [← same]; rfl)) c.instruction_ne_closeLoop
    | command d b' =>
      obtain ⟨first, tails⟩ := List.cons.inj same
      obtain ⟨rfl, behind⟩ := ih ended ended' tails
      exact ⟨by rw [PlainCommand.instruction_injective first], behind⟩
    | loop _ _ => exact absurd (List.cons.inj same).1 c.instruction_ne_openLoop
  | loop body b ihBody ih =>
    cases b' with
    | nil =>
      rw [code, code, List.nil_append] at same
      cases ended' .openLoop (by rw [← same]; rfl)
    | command d _ => exact absurd (List.cons.inj same).1.symm d.instruction_ne_openLoop
    | loop body' b' =>
      simp only [code, List.cons_append, List.append_assoc, List.cons.injEq, true_and] at same
      obtain ⟨rfl, tails⟩ := ihBody (over_closeLoop _) (over_closeLoop _) same
      obtain ⟨rfl, behind⟩ := ih ended ended' (List.cons.inj tails).2
      exact ⟨rfl, behind⟩

theorem code_injective {b b' : Block} (same : b.code = b'.code) : b = b' :=
  (code_append_inj over_nil over_nil (by rw [same])).1

/-! ## A block for every accepted stream -/

/-- Blocks with a closing bracket between each two: what stands in a stream behind the openings of
as many loops. -/
def closing : Block → List Block → List Instruction
  | b, [] => b.code
  | b, next :: outer => b.code ++ .closeLoop :: closing next outer

/-- What the scan gets through with no loop open at the end closes the loops that were open before,
one after the other. -/
theorem exists_closing {code : List Instruction} {position : Nat} {opened : List Nat}
    (h : openPositions code position opened = .ok []) :
    ∃ b outer, outer.length = opened.length ∧ closing b outer = code := by
  induction code generalizing position opened with
  | nil =>
    cases h
    exact ⟨nil, [], rfl, rfl⟩
  | cons i code ih =>
    by_cases opens : i = .openLoop
    · subst opens
      -- the first piece is the body, and the loop goes in front of the second one
      obtain ⟨body, outer, counted, written⟩ := ih h
      cases outer with
      | nil => cases counted
      | cons b outer =>
        refine ⟨loop body b, outer, Nat.succ.inj counted, ?_⟩
        rw [← written]
        cases outer <;> simp [closing, Block.code]
    by_cases closes : i = .closeLoop
    · subst closes
      cases opened with
      | nil => cases h
      | cons _ opened =>
        -- nothing is in front of the bracket; the first piece that follows is outside of it
        obtain ⟨b, outer, counted, written⟩ := ih h
        exact ⟨nil, b :: outer, by simp [counted], by simp [closing, Block.code, written]⟩
    · obtain ⟨c, rfl⟩ := PlainCommand.exists_instruction_eq opens closes
      rw [c.openPositions_instruction] at h
      obtain ⟨b, outer, counted, written⟩ := ih h
      refine ⟨command c b, outer, counted, ?_⟩
      rw [← written]
      cases outer <;> rfl

theorem openPositions_code (b : Block) (rest : List Instruction) (position : Nat)
    (opened : List Nat) :
    openPositions (b.code ++ rest) position opened =
      openPositions rest (position + b.code.length) opened := by
  induction b generalizing rest position opened with
  | nil => rfl
  | command c b ih =>
    rw [code, List.cons_append, c.openPositions_instruction, ih, List.length_cons]
    congr 1
    omega
  | loop body b ihBody ih =>
    rw [code, List.cons_append, List.append_assoc, openPositions, ihBody, List.cons_append,
      openPositions, ih]
    congr 1
    simp only [List.length_cons, List.length_append]
    omega

end Block

theorem Program.checkBrackets_of_code {p : Program} {b : Block} (written : b.code = p.toList) :
    p.checkBrackets = .ok () := by
  have passed := b.openPositions_code [] 0 []
  rw [List.append_nil, written] at passed
  exact checkBrackets_eq_ok_iff_openPositions.mpr passed

/-- A program is accepted exactly when it is written by a block, and then by one block only. -/
theorem Program.checkBrackets_eq_ok_iff_block {p : Program} :
    p.checkBrackets = .ok () ↔ ∃! b : Block, b.code = p.toList := by
  constructor
  · intro accepted
    have scanned := checkBrackets_eq_ok_iff_openPositions.mp accepted
    obtain ⟨b, outer, counted, written⟩ := Block.exists_closing scanned
    obtain rfl := List.length_eq_zero_iff.mp counted
    exact ⟨b, written, fun other same => Block.code_injective (same.trans written.symm)⟩
  · rintro ⟨b, written, _⟩
    exact checkBrackets_of_code written

end Brainfuck
