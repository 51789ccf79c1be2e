import Brainfuck.Proofs.Block
import Brainfuck.Proofs.Stepping

/-! # Structured meaning

What a block does, said along its tree, and that the machine does the same on the stream.

* `Store`, `PlainCommand.apply` — what a program works on, and what a plain command does to it;
* `Iterates`, `Block.Runs` — a block from a store to an ending, with the number of steps;
* `arrives_of_runs` — the machine follows a block: it gets behind the block with the same loops
  open, or to the `>` that is refused, in just that number of steps;
* `runs_of_stopsAfter` — where the machine stops, the block has an ending;
* `execute_iff_runs` — so an execution ends as the block of the program does.

There are two inductions, one inside the other: on the tree, and for a loop on its iterations.  The
machine goes through an iteration from the first instruction of the body with the loop on its list,
however it came there, by the `[` or back from the `]`.
-/

namespace Brainfuck

structure Store where
  tape : Tape
  input : Input
  /-- How many bytes of the input were read. -/
  reads : Nat
  output : Array UInt8

/-- How a block ends: at its end, or in front of a `>` that the tape refuses. -/
inductive Ending where
  | finished (s : Store)
  | refused (s : Store)

def Ending.store : Ending → Store
  | finished s => s
  | refused s => s

def Ending.fault? : Ending → Option Fault
  | finished _ => none
  | refused s => some (.memoryLimit s.tape.maxCells)

theorem Ending.eq_of_fault? {e e' : Ending} (stored : e.store = e'.store)
    (faults : e.fault?.isSome = e'.fault?.isSome) : e = e' := by
  cases e <;> cases e' <;> first
    | (cases stored; rfl)
    | cases faults

/-- What a command does to a store; none for a `>` that the tape refuses. -/
def PlainCommand.apply : PlainCommand → Store → Option Store
  | moveRight, s => s.tape.moveRight?.map fun tape => { s with tape := tape }
  | moveLeft, s => some { s with tape := s.tape.moveLeft }
  | increment, s => some { s with tape := s.tape.increment }
  | decrement, s => some { s with tape := s.tape.decrement }
  | output, s => some { s with output := s.output.push s.tape.read }
  | input, s =>
    match s.input.next with
    | (some b, rest) => some { s with tape := s.tape.put b, input := rest, reads := s.reads + 1 }
    | (none, rest) => some { s with tape := s.tape.put 0, input := rest }

/-- A loop that has been entered, by what its body does: the body again and again, with a test
behind each time, until the cell is zero.  Each iteration counts the body's steps and one for the
test. -/
inductive Iterates (body : Store → Ending → Nat → Prop) : Store → Ending → Nat → Prop where
  | last {s t : Store} {n : Nat} (once : body s (.finished t) n) (zero : t.tape.read = 0) :
      Iterates body s (.finished t) (n + 1)
  | again {s t : Store} {e : Ending} {n k : Nat} (once : body s (.finished t) n)
      (nonzero : t.tape.read ≠ 0) (more : Iterates body t e k) : Iterates body s e (n + 1 + k)
  | refused {s t : Store} {n : Nat} (once : body s (.refused t) n) :
      Iterates body s (.refused t) n

/-- A block run from a store, with its ending and the number of steps: one for a command, one for a
loop that is skipped, and for a loop that is entered one and those of its iterations. -/
def Block.Runs : Block → Store → Ending → Nat → Prop
  | nil => fun s e n => e = .finished s ∧ n = 0
  | command c rest => fun s e n =>
    match c.apply s with
    | none => e = .refused s ∧ n = 0
    | some t => ∃ k, rest.Runs t e k ∧ n = 1 + k
  | loop body rest => fun s e n =>
    if s.tape.read = 0 then ∃ k, rest.Runs s e k ∧ n = 1 + k
    else
      (∃ t k l, Iterates body.Runs s (.finished t) k ∧ rest.Runs t e l ∧ n = 1 + k + l) ∨
      ∃ t k, Iterates body.Runs s (.refused t) k ∧ e = .refused t ∧ n = 1 + k

/-- A piece of code stands at a position. -/
def Placed (code piece : List Instruction) (position : Nat) : Prop :=
  piece <+: code.drop position

namespace Placed

variable {code piece more : List Instruction} {i : Instruction} {k : Nat}

theorem head (h : Placed code (i :: piece) k) : code[k]? = some i := by
  obtain ⟨behind, same⟩ := h
  rw [← List.head?_drop, ← same]
  rfl

theorem tail (h : Placed code (i :: piece) k) : Placed code piece (k + 1) := by
  obtain ⟨behind, same⟩ := h
  exact ⟨behind, by rw [← List.drop_drop, ← same]; rfl⟩

theorem left (h : Placed code (piece ++ more) k) : Placed code piece k :=
  (List.prefix_append piece more).trans h

theorem right (h : Placed code (piece ++ more) k) : Placed code more (k + piece.length) := by
  obtain ⟨behind, same⟩ := h
  refine ⟨behind, ?_⟩
  rw [← List.drop_drop, ← same, List.append_assoc, List.drop_left]

end Placed

/-! ## Single steps -/

namespace Machine

variable {m next : Machine}

def store (m : Machine) : Store where
  tape := m.tape
  input := m.input
  reads := m.reads
  output := m.output

theorem read_of_store {s : Store} (h : m.store = s) : m.tape.read = s.tape.read := by
  rw [← h]
  rfl

theorem store_record (m : Machine) (i : Instruction) : (m.record i).store = m.store := by
  unfold record
  split <;> rfl

theorem store_of_stop? {outcome : Option Fault} (h : m.stop? = some (next, outcome)) :
    next.store = m.store :=
  eq_of_stop? (f := store) m.store_record h

theorem store_carryOut_record (m : Machine) (i : Instruction) (e : Effect) :
    ((m.record i).carryOut e).store = (m.carryOut e).store := by
  unfold record
  split
  · cases e with
    | input =>
      simp only [carryOut, readByte]
      cases m.input.next with
      | mk byte rest => cases byte <;> rfl
    | _ => rfl
  · rfl

/-- A step with an effect, seen from the store, the position and the open loops. -/
theorem step_of_effectOf {i : Instruction} {e : Effect} (here : m.current? = some i)
    (does : m.effectOf i = .ok e) :
    ∃ next, m.step = .ran next ∧ next.program = m.program ∧
      next.store = (m.carryOut e).store ∧ next.position = e.target m.position ∧
      next.openLoops = e.loops m.position m.openLoops :=
  ⟨_, step_eq_ran_iff.mpr ⟨i, e, here, does, rfl⟩, by simp, store_carryOut_record m i e,
    by simp, by simp⟩

/-- A plain command does to the machine's store what it does to a store, or it is refused where a
store refuses it. -/
theorem step_of_apply {c : PlainCommand} (here : m.current? = some c.instruction) :
    match c.apply m.store with
    | none => m.current? = some .moveRight ∧ m.tape.atLimit = true
    | some s =>
      ∃ next, m.step = .ran next ∧ next.program = m.program ∧ next.store = s ∧
        next.position = m.position + 1 ∧ next.openLoops = m.openLoops := by
  cases c with
  | moveRight =>
    -- the machine asks for the limit first, the tape while it moves
    cases limit : m.tape.atLimit with
    | true =>
      simp only [PlainCommand.apply, store, Tape.moveRight?, limit]
      exact ⟨here, trivial⟩
    | false =>
      have does : m.effectOf .moveRight = .ok .moveRight := by simp [effectOf, limit]
      simp only [PlainCommand.apply, store, Tape.moveRight?, limit]
      exact step_of_effectOf here does
  | input =>
    obtain ⟨next, stepped, same, stored, place⟩ := step_of_effectOf here rfl
    simp only [carryOut, readByte] at stored
    simp only [PlainCommand.apply, store]
    cases read : m.input.next with
    | mk byte rest =>
      rw [read] at stored
      cases byte <;> exact ⟨next, stepped, same, stored, place⟩
  | _ => exact step_of_effectOf here rfl

theorem step_skip {close : Nat} (here : m.current? = some .openLoop) (zero : m.tape.read = 0)
    (found : m.program.closeOf? m.position = some close) :
    ∃ next, m.step = .ran next ∧ next.program = m.program ∧ next.store = m.store ∧
      next.position = close + 1 ∧ next.openLoops = m.openLoops := by
  have does : m.effectOf .openLoop = .ok (.skip close) := by simp [effectOf, zero, found]
  exact step_of_effectOf here does

theorem step_enter (here : m.current? = some .openLoop) (nonzero : m.tape.read ≠ 0) :
    ∃ next, m.step = .ran next ∧ next.program = m.program ∧ next.store = m.store ∧
      next.position = m.position + 1 ∧ next.openLoops = m.position :: m.openLoops := by
  have does : m.effectOf .openLoop = .ok .enter := by simp [effectOf, nonzero]
  exact step_of_effectOf here does

theorem step_leave {start : Nat} {outer : List Nat} (here : m.current? = some .closeLoop)
    (opened : m.openLoops = start :: outer) (zero : m.tape.read = 0) :
    ∃ next, m.step = .ran next ∧ next.program = m.program ∧ next.store = m.store ∧
      next.position = m.position + 1 ∧ next.openLoops = outer := by
  have does : m.effectOf .closeLoop = .ok .leave := by simp [effectOf, opened, zero]
  obtain ⟨next, stepped, same, stored, place, held⟩ := step_of_effectOf here does
  exact ⟨next, stepped, same, stored, place, by rw [held, opened]; rfl⟩

theorem step_again {start : Nat} {outer : List Nat} (here : m.current? = some .closeLoop)
    (opened : m.openLoops = start :: outer) (nonzero : m.tape.read ≠ 0) :
    ∃ next, m.step = .ran next ∧ next.program = m.program ∧ next.store = m.store ∧
      next.position = start + 1 ∧ next.openLoops = start :: outer := by
  have does : m.effectOf .closeLoop = .ok (.again start) := by simp [effectOf, opened, nonzero]
  obtain ⟨next, stepped, same, stored, place, held⟩ := step_of_effectOf here does
  exact ⟨next, stepped, same, stored, place, by rw [held, opened]; rfl⟩

end Machine

/-! ## The search for a closing bracket passes over a block -/

theorem Program.closeFrom_code {p : Program} (b : Block) (bound : Nat) {position depth : Nat}
    (placed : Placed p.toList b.code position) (deep : 1 ≤ depth) :
    p.closeFrom (bound + b.code.length) position depth =
      p.closeFrom bound (position + b.code.length) depth := by
  induction b generalizing bound position depth with
  | nil => rfl
  | command c b ih =>
    have here : p[position]? = some c.instruction := by
      rw [← Array.getElem?_toList]
      exact placed.head
    have onward : p.closeFrom (bound + b.code.length + 1) position depth =
        p.closeFrom (bound + b.code.length) (position + 1) depth := by
      cases c <;> simp [closeFrom, here, PlainCommand.instruction]
    rw [Block.code, List.length_cons, ← Nat.add_assoc, onward, ih bound placed.tail deep]
    congr 1
    omega
  | loop body b ihBody ih =>
    have opens : p[position]? = some .openLoop := by
      rw [← Array.getElem?_toList]
      exact placed.head
    have closes : p[position + 1 + body.code.length]? = some .closeLoop := by
      rw [← Array.getElem?_toList]
      exact placed.tail.right.head
    have size : (Block.loop body b).code.length = b.code.length + 1 + body.code.length + 1 := by
      simp only [Block.code, List.length_cons, List.length_append]
      omega
    have inside := ihBody (bound + (b.code.length + 1)) placed.tail.left (Nat.le_add_left 1 depth)
    have behind := ih bound placed.tail.right.tail deep
    -- inside the body the search is one loop deeper, so the bracket behind it does not end it
    have goesOn : ¬ depth + 1 ≤ 1 := by omega
    rw [size, ← Nat.add_assoc, closeFrom]
    simp only [opens]
    rw [← Nat.add_assoc, inside, ← Nat.add_assoc, closeFrom]
    simp only [closes, goesOn, if_false, Nat.add_sub_cancel]
    rw [behind]
    congr 1
    omega

theorem Program.closeOf?_loop {p : Program} {body rest : Block} {position : Nat}
    (placed : Placed p.toList (Block.loop body rest).code position) :
    p.closeOf? position = some (position + 1 + body.code.length) := by
  have closes : p[position + 1 + body.code.length]? = some .closeLoop := by
    rw [← Array.getElem?_toList]
    exact placed.tail.right.head
  have inside : position + 1 + body.code.length < p.size :=
    (Array.getElem?_eq_some_iff.mp closes).1
  obtain ⟨bound, size⟩ : ∃ bound, p.size = bound + 1 + body.code.length :=
    ⟨p.size - 1 - body.code.length, by omega⟩
  rw [closeOf?, size, closeFrom_code body (bound + 1) placed.tail.left (Nat.le_refl 1), closeFrom]
  simp [closes]

/-! ## From the block to the machine -/

namespace Machine

variable {m next : Machine}

/-- After `n` steps the machine is where a block's ending says: at a position with some loops open,
or in front of a `>` that the tape refuses. -/
def Arrives (m : Machine) (position : Nat) (opened : List Nat) (e : Ending) (n : Nat) : Prop :=
  ∃ last, m.after n = some last ∧ last.store = e.store ∧
    match e with
    | .finished _ => last.position = position ∧ last.openLoops = opened
    | .refused _ => last.current? = some .moveRight ∧ last.tape.atLimit = true

theorem Arrives.of_after {position k n : Nat} {opened : List Nat} {e : Ending}
    (reached : m.after k = some next) (h : next.Arrives position opened e n) :
    m.Arrives position opened e (k + n) := by
  obtain ⟨last, onward, there⟩ := h
  exact ⟨last, (after_add reached n).trans onward, there⟩

theorem current?_of_placed {i : Instruction} {piece : List Instruction}
    (placed : Placed m.program.toList (i :: piece) m.position) : m.current? = some i := by
  rw [current?, ← Array.getElem?_toList]
  exact placed.head

theorem current?_of_body {last : Machine} {body rest : Block} {start n : Nat}
    (placed : Placed m.program.toList (Block.loop body rest).code start)
    (reached : m.after n = some last) (place : last.position = start + 1 + body.code.length) :
    last.current? = some .closeLoop := by
  have closes := placed.tail.right
  rw [← program_after reached, ← place] at closes
  exact current?_of_placed closes

/-- A machine inside a loop follows the iterations of the loop if it follows the body. -/
theorem arrives_of_iterates {body rest : Block} {s : Store} {e : Ending} {start n : Nat}
    {outer : List Nat}
    (follows : ∀ {m : Machine} {e : Ending} {n : Nat},
      Placed m.program.toList body.code m.position → body.Runs m.store e n →
      m.Arrives (m.position + body.code.length) m.openLoops e n)
    (placed : Placed m.program.toList (Block.loop body rest).code start)
    (position : m.position = start + 1) (opened : m.openLoops = start :: outer)
    (stored : m.store = s) (h : Iterates body.Runs s e n) :
    m.Arrives (start + 1 + body.code.length + 1) outer e n := by
  have inside : Placed m.program.toList body.code m.position := by
    rw [position]
    exact placed.tail.left
  -- along the iterations: each one begins where the first one does, on the same open loops
  induction h generalizing m with
  | refused once =>
    subst stored
    exact follows inside once
  | last once zero =>
    subst stored
    obtain ⟨last, reached, ending, place, held⟩ := follows inside once
    rw [position] at place
    have here := current?_of_body placed reached place
    have cell : last.tape.read = 0 := (read_of_store ending).trans zero
    obtain ⟨next, left, _, kept, behind, outside⟩ := step_leave here (held.trans opened) cell
    refine ⟨next, (after_add reached 1).trans (after_one left), kept.trans ending, ?_, outside⟩
    rw [behind, place]
  | again once nonzero more ih =>
    subst stored
    obtain ⟨last, reached, ending, place, held⟩ := follows inside once
    rw [position] at place
    have here := current?_of_body placed reached place
    have cell : last.tape.read ≠ 0 := fun zero => nonzero ((read_of_store ending).symm.trans zero)
    obtain ⟨next, restarted, same, kept, place, held⟩ := step_again here (held.trans opened) cell
    -- from here on it is the same loop with an iteration less
    have arrived := (after_add reached 1).trans (after_one restarted)
    have there : next.program = m.program := program_after arrived
    exact .of_after arrived (ih (by rw [there]; exact placed) place held (kept.trans ending)
      (by rw [there, place, ← position]; exact inside))

/-- The machine follows a block from the first instruction of its code. -/
theorem arrives_of_runs (b : Block) {e : Ending} {n : Nat}
    (placed : Placed m.program.toList b.code m.position) (h : b.Runs m.store e n) :
    m.Arrives (m.position + b.code.length) m.openLoops e n := by
  induction b generalizing m e n with
  | nil =>
    obtain ⟨rfl, rfl⟩ := h
    exact ⟨m, rfl, rfl, rfl, rfl⟩
  | command c rest ih =>
    have done := step_of_apply (current?_of_placed placed)
    unfold Block.Runs at h
    cases applied : c.apply m.store with
    | none =>
      -- the machine is where the block ends, in front of the `>`
      rw [applied] at h done
      obtain ⟨rfl, rfl⟩ := h
      exact ⟨m, rfl, rfl, done⟩
    | some s =>
      rw [applied] at h done
      obtain ⟨k, onward, rfl⟩ := h
      obtain ⟨next, stepped, same, rfl, place, held⟩ := done
      have behind := ih (by rw [same, place]; exact placed.tail) onward
      have length : m.position + (Block.command c rest).code.length =
          next.position + rest.code.length := by
        rw [place, Block.code, List.length_cons]
        omega
      rw [length, ← held]
      exact .of_after (after_one stepped) behind
  | loop body rest ihBody ih =>
    have here := current?_of_placed placed
    have length : m.position + (Block.loop body rest).code.length =
        m.position + 1 + body.code.length + 1 + rest.code.length := by
      simp only [Block.code, List.length_cons, List.length_append]
      omega
    unfold Block.Runs at h
    rw [length]
    split at h
    · -- the loop is skipped
      rename_i zero
      obtain ⟨k, onward, rfl⟩ := h
      obtain ⟨next, stepped, same, stored, place, held⟩ :=
        step_skip here zero (Program.closeOf?_loop placed)
      rw [← stored] at onward
      have behind := ih (by rw [same, place]; exact placed.tail.right.tail) onward
      rw [← place, ← held]
      exact .of_after (after_one stepped) behind
    · -- the loop is entered
      rename_i nonzero
      obtain ⟨entered, stepped, same, stored, place, held⟩ := step_enter here nonzero
      have inside : ∀ {e n}, Iterates body.Runs m.store e n →
          entered.Arrives (m.position + 1 + body.code.length + 1) m.openLoops e n :=
        fun iterated =>
          arrives_of_iterates ihBody (by rw [same]; exact placed) place held stored iterated
      rcases h with ⟨t, k, l, iterated, onward, rfl⟩ | ⟨t, k, iterated, rfl, rfl⟩
      · obtain ⟨last, reached, ending, place, outside⟩ := inside iterated
        have arrived := (after_add (after_one stepped) k).trans reached
        have there : last.program = m.program := program_after arrived
        rw [← (show last.store = t from ending)] at onward
        have behind := ih (by rw [there, place]; exact placed.tail.right.tail) onward
        rw [← place, ← outside]
        exact .of_after arrived behind
      · exact .of_after (after_one stepped) (inside iterated)

/-! ## From the machine to the block -/

theorem iterates_of_stopsAfter {body rest : Block} {start n : Nat} {outer : List Nat}
    (ends : ∀ {m : Machine} {n : Nat}, Placed m.program.toList body.code m.position →
      m.StopsAfter n → ∃ e k, body.Runs m.store e k)
    (placed : Placed m.program.toList (Block.loop body rest).code start)
    (position : m.position = start + 1) (opened : m.openLoops = start :: outer)
    (h : m.StopsAfter n) : ∃ e k, Iterates body.Runs m.store e k := by
  induction n using Nat.strongRecOn generalizing m with
  | ind n ih =>
    have inside : Placed m.program.toList body.code m.position := by
      rw [position]
      exact placed.tail.left
    obtain ⟨e, k, once⟩ := ends inside h
    have arrived := arrives_of_runs body inside once
    cases e with
    | refused t => exact ⟨_, _, .refused once⟩
    | finished t =>
      obtain ⟨last, reached, ending, place, held⟩ := arrived
      rw [position] at place
      by_cases zero : t.tape.read = 0
      · exact ⟨_, _, .last once zero⟩
      · -- the next iteration starts with fewer steps to come
        have here := current?_of_body placed reached place
        have cell : last.tape.read ≠ 0 := fun left => zero ((read_of_store ending).symm.trans left)
        obtain ⟨next, restarted, same, kept, place, held⟩ :=
          step_again here (held.trans opened) cell
        have arrived := (after_add reached 1).trans (after_one restarted)
        obtain ⟨left, counted, stops⟩ := h.of_after arrived
        have there : next.program = m.program := program_after arrived
        obtain ⟨e, l, more⟩ :=
          ih left (by omega) (by rw [there]; exact placed) place held stops
        rw [kept.trans ending] at more
        exact ⟨e, _, .again once zero more⟩

/-- A block that is started by a machine that stops has an ending. -/
theorem runs_of_stopsAfter (b : Block) {n : Nat}
    (placed : Placed m.program.toList b.code m.position) (h : m.StopsAfter n) :
    ∃ e k, b.Runs m.store e k := by
  induction b generalizing m n with
  | nil => exact ⟨_, _, rfl, rfl⟩
  | command c rest ih =>
    have done := step_of_apply (current?_of_placed placed)
    unfold Block.Runs
    cases applied : c.apply m.store with
    | none => exact ⟨_, _, rfl, rfl⟩
    | some s =>
      rw [applied] at done
      obtain ⟨next, stepped, same, rfl, place, held⟩ := done
      obtain ⟨_, _, stops⟩ := h.of_after (after_one stepped)
      obtain ⟨e, k, onward⟩ := ih (by rw [same, place]; exact placed.tail) stops
      exact ⟨e, _, k, onward, rfl⟩
  | loop body rest ihBody ih =>
    have here := current?_of_placed placed
    unfold Block.Runs
    split
    · -- the loop is skipped
      rename_i zero
      obtain ⟨next, stepped, same, stored, place, held⟩ :=
        step_skip here zero (Program.closeOf?_loop placed)
      obtain ⟨_, _, stops⟩ := h.of_after (after_one stepped)
      obtain ⟨e, k, onward⟩ := ih (by rw [same, place]; exact placed.tail.right.tail) stops
      rw [stored] at onward
      exact ⟨e, _, k, onward, rfl⟩
    · -- the loop is entered
      rename_i nonzero
      obtain ⟨entered, stepped, same, stored, place, held⟩ := step_enter here nonzero
      obtain ⟨_, _, stops⟩ := h.of_after (after_one stepped)
      have around : Placed entered.program.toList (Block.loop body rest).code m.position := by
        rw [same]
        exact placed
      obtain ⟨e, k, iterated⟩ := iterates_of_stopsAfter ihBody around place held stops
      -- where the loop ends says whether there is anything left to run
      have arrived := arrives_of_iterates (arrives_of_runs body) around place held rfl iterated
      rw [stored] at iterated
      cases e with
      | refused t => exact ⟨_, _, .inr ⟨t, k, iterated, rfl, rfl⟩⟩
      | finished t =>
        obtain ⟨last, reached, ending, behind, _⟩ := arrived
        obtain ⟨_, _, stops⟩ := stops.of_after reached
        have there : last.program = m.program := (program_after reached).trans same
        obtain ⟨e, l, onward⟩ := ih (by rw [there, behind]; exact placed.tail.right.tail) stops
        rw [show last.store = t from ending] at onward
        exact ⟨e, _, .inl ⟨t, k, l, iterated, onward, rfl⟩⟩

/-! ## Executions -/

theorem Arrives.stop? {opened : List Nat} {e : Ending} {n : Nat}
    (h : m.Arrives m.program.size opened e n) :
    ∃ before last, m.after n = some before ∧ before.stop? = some (last, e.fault?) ∧
      last.store = e.store ∧ last.steps = m.steps + n := by
  obtain ⟨before, reached, ending, there⟩ := h
  suffices stops : ∃ last, before.stop? = some (last, e.fault?) by
    obtain ⟨last, stops⟩ := stops
    exact ⟨before, last, reached, stops, (store_of_stop? stops).trans ending,
      (steps_of_stop? stops).trans (steps_after reached)⟩
  cases e with
  | finished s =>
    have size : before.program.size = before.position := by
      rw [there.1, program_after reached]
    have halted : before.step = .halted :=
      step_eq_halted_iff.mpr (current?_eq_none_iff.mpr (Nat.le_of_eq size))
    exact ⟨before, by simp [Machine.stop?, halted, Ending.fault?]⟩
  | refused s =>
    obtain ⟨here, limit⟩ := there
    have cap : before.tape.maxCells = s.tape.maxCells := by
      rw [← show before.store = s from ending]
      rfl
    have fails : before.effectOf .moveRight = .error (.memoryLimit s.tape.maxCells) := by
      simp [effectOf, limit, cap]
    have failed := step_eq_failed_iff.mpr ⟨_, here, fails, rfl⟩
    exact ⟨before.record .moveRight, by simp only [Machine.stop?, failed, Ending.fault?]⟩

theorem placed_reset {tree : Block} (written : tree.code = m.program.toList) :
    Placed m.reset.program.toList tree.code m.reset.position := by
  rw [written]
  exact List.prefix_refl _

theorem stops_of_runs {tree : Block} (written : tree.code = m.program.toList) {e : Ending} {n : Nat}
    (runs : tree.Runs m.reset.store e n) :
    ∃ before last, m.reset.after n = some before ∧ before.stop? = some (last, e.fault?) ∧
      last.store = e.store ∧ last.steps = n := by
  have arrived := arrives_of_runs tree (placed_reset written) runs
  have size : m.reset.position + tree.code.length = m.reset.program.size := by
    rw [written]
    exact Nat.zero_add _
  rw [size] at arrived
  -- a reset machine has taken no steps
  obtain ⟨before, last, reached, stops, ending, counted⟩ := arrived.stop?
  exact ⟨before, last, reached, stops, ending, counted.trans (Nat.zero_add n)⟩

/-- The tree of a program has the endings, and takes the steps, that an execution reports. -/
theorem runs_iff_execute {tree : Block} (written : tree.code = m.program.toList) {e : Ending}
    {n : Nat} :
    tree.Runs m.reset.store e n ↔
      ∃ fuel last report, m.execute fuel = some (last, report) ∧
        report.failure = e.fault?.map (.fault · last.position) ∧
        report.steps = n ∧ last.store = e.store := by
  have accepted := Program.checkBrackets_of_code written
  constructor
  · intro runs
    obtain ⟨before, last, reached, stops, ending, counted⟩ := stops_of_runs written runs
    exact ⟨n + 1, last, _, (execute_eq_some_iff accepted).mpr
      ⟨n, Nat.lt_succ_self n, before, _, reached, stops, rfl⟩, rfl, counted, ending⟩
  · rintro ⟨fuel, last, report, ended, failed, counted, ending⟩
    obtain ⟨k, _, before, outcome, reached, stops, rfl⟩ := (execute_eq_some_iff accepted).mp ended
    obtain ⟨e', n', runs⟩ :=
      runs_of_stopsAfter tree (placed_reset written) ⟨before, _, reached, stops⟩
    obtain ⟨before', last', reached', stops', ending', counted'⟩ := stops_of_runs written runs
    -- both say where the machine stops, so they agree on when and how
    have same : n' = k :=
      StopsAfter.unique ⟨before', _, reached', stops'⟩ ⟨before, _, reached, stops⟩
    subst same
    obtain rfl := Option.some.inj (reached'.symm.trans reached)
    obtain ⟨rfl, rfl⟩ := Prod.mk.inj (Option.some.inj (stops'.symm.trans stops))
    have faults : e'.fault?.isSome = e.fault?.isSome := by
      have failures := congrArg Option.isSome failed
      simpa [reportOf] using failures
    have steps : n' = n := counted'.symm.trans counted
    have endings : e' = e := Ending.eq_of_fault? (ending'.symm.trans ending) faults
    rwa [← steps, ← endings]

/-- An accepted program has one tree, and on a fresh tape the tree finishes exactly where the
execution succeeds, and comes to a `>` that is refused exactly where the execution reports the
memory limit.  Each time they agree on the tape, the input that was read, the output and the number
of steps. -/
theorem execute_iff_runs {p : Program} (accepted : p.checkBrackets = .ok ()) :
    (∃! tree : Block, tree.code = p.toList) ∧
    ∀ tree : Block, tree.code = p.toList →
    ∀ (cells max : Nat) (pos : 0 < cells) (le : cells ≤ max) (input : List UInt8)
      (tracing : Bool),
      let blank := Tape.blank cells max pos le
      let fresh := (onTape blank tracing (.bytes input)).load p
      let start : Store := ⟨blank, .bytes input, 0, #[]⟩
      (∀ s n, tree.Runs start (.finished s) n ↔
        ∃ fuel last report, fresh.execute fuel = some (last, report) ∧
          report.ok = true ∧ report.steps = n ∧ last.store = s) ∧
      ∀ s n, tree.Runs start (.refused s) n ↔
        ∃ fuel last report, fresh.execute fuel = some (last, report) ∧
          report.failure = some (.fault (.memoryLimit max) last.position) ∧
          report.steps = n ∧ last.store = s := by
  refine ⟨Program.checkBrackets_eq_ok_iff_block.mp accepted, ?_⟩
  intro tree written cells max pos le input tracing blank fresh start
  have runs {e : Ending} {n : Nat} := runs_iff_execute (m := fresh) (e := e) (n := n) written
  constructor
  · intro s n
    simp only [Report.ok, Option.isNone_iff_eq_none]
    exact runs
  · intro s n
    have cap {fuel : Nat} {last : Machine} {report : Report}
        (ended : fresh.execute fuel = some (last, report)) (stored : last.store = s) :
        s.tape.maxCells = max := by
      rw [← stored]
      exact maxCells_of_execute ended
    constructor
    · intro refused
      obtain ⟨fuel, last, report, ended, failed, counted, stored⟩ := runs.mp refused
      refine ⟨fuel, last, report, ended, ?_, counted, stored⟩
      rw [failed, ← cap ended stored]
      rfl
    · rintro ⟨fuel, last, report, ended, failed, counted, stored⟩
      refine runs.mpr ⟨fuel, last, report, ended, ?_, counted, stored⟩
      rw [failed, ← cap ended stored]
      rfl

/-- With three cells to go to the tree finishes, with two of them the second `>` is refused.  The
inner loop is gone through twice and then skipped. -/
theorem execute_iff_runs_nested :
    ∃ (tree : Block) (s t : Store), tree.code = (Program.ofText "+[>,[-.],]").toList ∧
      tree.Runs ⟨Tape.blank 1 3 (by decide) (by decide), .bytes [2, 7], 0, #[]⟩
        (.finished s) 18 ∧
      tree.Runs ⟨Tape.blank 1 2 (by decide) (by decide), .bytes [2, 7], 0, #[]⟩
        (.refused t) 13 ∧
      s.output = #[1, 0] ∧ t.output = #[1, 0] ∧ t.tape.cells = #[1, 7] := by
  let p := Program.ofText "+[>,[-.],]"
  let tree := Block.command .increment <| .loop
    (.command .moveRight <| .command .input <|
      .loop (.command .decrement <| .command .output .nil) <| .command .input .nil) .nil
  have written : tree.code = p.toList := by decide +kernel
  obtain ⟨_, agree⟩ := execute_iff_runs (Program.checkBrackets_of_code written)
  have room : (((onTape (Tape.blank 1 3 (by decide) (by decide)) false
      (.bytes [2, 7])).load p).execute 30).map (fun (last, report) => (report, last.output)) =
        some (⟨18, 2, none⟩, #[1, 0]) := by
    decide +kernel
  have full : (((onTape (Tape.blank 1 2 (by decide) (by decide)) false
      (.bytes [2, 7])).load p).execute 30).map
        (fun (last, report) => (report, last.position, last.output, last.tape.cells)) =
        some (⟨13, 2, some (.fault (.memoryLimit 2) 2)⟩, 2, #[1, 0], #[1, 7]) := by
    decide +kernel
  obtain ⟨⟨last, report⟩, ended, same⟩ := Option.map_eq_some_iff.mp room
  obtain ⟨rfl, output⟩ := Prod.mk.inj same
  obtain ⟨⟨last', report'⟩, ended', same'⟩ := Option.map_eq_some_iff.mp full
  simp only [Prod.mk.injEq] at same'
  obtain ⟨rfl, position', output', cells'⟩ := same'
  have finishes := (agree tree written 1 3 (by decide) (by decide) [2, 7] false).1 last.store 18
  have refuses := (agree tree written 1 2 (by decide) (by decide) [2, 7] false).2 last'.store 13
  exact ⟨tree, last.store, last'.store, written,
    finishes.mpr ⟨30, last, _, ended, rfl, rfl, rfl⟩,
    refuses.mpr ⟨30, last', _, ended', by rw [position'], rfl, rfl⟩, output, output', cells'⟩

end Machine

end Brainfuck
