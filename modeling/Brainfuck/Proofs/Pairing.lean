import Brainfuck.Proofs.LoopStack
import Mathlib.Order.Bounds.Basic

/-! # One pairing of brackets

Which closing bracket belongs to an opening one is found out in three ways: a skipped loop counts
the depth forward from its opening, the check of the brackets keeps the open loops of the text in
front of it, and a running machine keeps the loops that it is inside of.

* `levelBehind` — the places behind an opening up to which as many loops are opened as closed;
* `PopsAt` — the check takes a loop off its list at a bracket;
* `closedBy_iff_isLeast`, `popsAt_iff_closedBy` — the first two ways come to the same bracket;
* `pairings_agree` — so does the third one, in every run.

The check and the machine are tied by their invariant: in front of a position both hold the same
loops.  So all that has to be shown of a run is where it stands.
-/

namespace Brainfuck

/-- The positions behind `start` up to and with which the program opens as many loops as it closes,
from `start` on. -/
def levelBehind (code : List Instruction) (start : Nat) : Set Nat :=
  {i | start < i ∧ i < code.length ∧ Level code start (i + 1)}

/-- At the closing bracket at `close` the scan of the brackets holds the loop opened at `start` as
the innermost one, and takes it off its list. -/
def PopsAt (code : List Instruction) (start close : Nat) : Prop :=
  code[close]? = some .closeLoop ∧ ∃ outer, openBefore code close = .ok (start :: outer)

variable {code : List Instruction} {start close : Nat}

theorem closedBy_iff_isLeast (opens : code[start]? = some .openLoop) :
    ClosedBy code start close ↔ IsLeast (levelBehind code start) close := by
  constructor
  · intro closed
    refine ⟨⟨closed.behind, closed.inside, closed.level⟩, ?_⟩
    rintro i ⟨behind, _, level⟩
    exact Nat.le_of_not_lt fun before => closed.first i before behind level
  · rintro ⟨⟨behind, inside, level⟩, least⟩
    refine ⟨opens, behind, inside, level, fun i before later again => ?_⟩
    exact Nat.not_le_of_lt before (least ⟨later, Nat.lt_trans before inside, again⟩)

/-! ## The list of the scan -/

theorem PopsAt.closedBy (h : PopsAt code start close) : ClosedBy code start close := by
  obtain ⟨closes, outer, scanned⟩ := h
  have inside : close < code.length := (List.getElem?_eq_some_iff.mp closes).1
  obtain ⟨behind, opens, outside⟩ := openBefore_cons (Nat.le_of_lt inside) scanned
  have held := (mem_openBefore_iff (Nat.le_of_lt inside) scanned).mp List.mem_cons_self
  -- the scan holds one loop more in front of the bracket than it did in front of the loop
  have within := length_openBefore (Nat.le_of_lt inside) scanned
  have below := length_openBefore (Nat.le_of_lt (Nat.lt_trans behind inside)) outside
  have falls := height_succ closes
  simp only [Instruction.rise] at falls
  rw [List.length_cons] at within
  refine ⟨opens, behind, inside, (level_iff (by omega)).mpr (by omega), held.2.2⟩

theorem popsAt_iff_closedBy {outer : List Nat} (outside : openBefore code start = .ok outer) :
    PopsAt code start close ↔ ClosedBy code start close :=
  ⟨PopsAt.closedBy, fun closed => ⟨closed.closes, outer, closed.openBefore_close outside⟩⟩

theorem PopsAt.unique {other : Nat} (h : PopsAt code start close) (h' : PopsAt code other close) :
    start = other := by
  obtain ⟨_, outer, scanned⟩ := h
  obtain ⟨_, outer', scanned'⟩ := h'
  rw [scanned] at scanned'
  exact (List.cons.inj (Except.ok.inj scanned')).1

namespace Program

variable {p : Program}

theorem exists_openBefore (accepted : p.checkBrackets = .ok ()) {k : Nat} (inside : k < p.size) :
    ∃ opened, openBefore p.toList k = .ok opened :=
  openBefore_of_le (Nat.le_refl _) (checkBrackets_eq_ok_iff.mp accepted) (Nat.le_of_lt inside)

theorem popsAt_iff_closeOf? (accepted : p.checkBrackets = .ok ())
    (opens : p.toList[start]? = some .openLoop) :
    PopsAt p.toList start close ↔ p.closeOf? start = some close := by
  obtain ⟨outer, outside⟩ := exists_openBefore accepted (List.getElem?_eq_some_iff.mp opens).1
  rw [popsAt_iff_closedBy outside, closeOf?_eq_some_iff opens]

theorem exists_popsAt (accepted : p.checkBrackets = .ok ())
    (closes : p.toList[close]? = some .closeLoop) : ∃ start, PopsAt p.toList start close := by
  obtain ⟨opened, scanned⟩ := exists_openBefore accepted (List.getElem?_eq_some_iff.mp closes).1
  cases opened with
  | nil =>
    have rejected := checkBrackets_of_closeLoop closes scanned
    rw [accepted] at rejected
    cases rejected
  | cons start outer => exact ⟨start, closes, outer, scanned⟩

theorem closeOf?_eq_none_iff (opens : p.toList[start]? = some .openLoop) :
    p.closeOf? start = none ↔ levelBehind p.toList start = ∅ := by
  constructor
  · intro lost
    have never := unclosed_of_closeOf?_eq_none opens lost
    refine Set.eq_empty_of_forall_notMem ?_
    rintro i ⟨behind, inside, level⟩
    exact never.2 i inside behind level
  · intro empty
    cases found : p.closeOf? start with
    | none => rfl
    | some close =>
      have closed := (closeOf?_eq_some_iff opens).mp found
      have least := (closedBy_iff_isLeast opens).mp closed
      rw [empty] at least
      cases least.1

end Program

/-! ## The loops of a machine -/

namespace Machine

variable {m : Machine}

/-- A machine at the opening of a loop that it skips fails if nothing closes the loop. -/
theorem step_eq_unmatchedOpen_iff (here : m.current? = some .openLoop) (zero : m.tape.read = 0) :
    (∃ next, m.step = .failed (.unmatchedOpen m.position) next) ↔
      m.program.closeOf? m.position = none := by
  constructor
  · rintro ⟨next, failed⟩
    obtain ⟨i, _, fails, _⟩ := step_eq_failed_iff.mp failed
    obtain ⟨_, _, other⟩ | ⟨_, lost, _⟩ | ⟨_, _, other⟩ := effectOf_eq_error fails
    · cases other
    · exact lost
    · cases other
  · intro lost
    have fails : m.effectOf .openLoop = .error (.unmatchedOpen m.position) := by
      rw [effectOf, if_pos zero, lost]
    exact ⟨_, step_eq_failed_iff.mpr ⟨_, here, fails, rfl⟩⟩

theorem Nested.openLoops_of_popsAt (h : m.Nested)
    (pops : PopsAt m.program.toList start m.position) : m.openLoops.head? = some start := by
  obtain ⟨_, outer, scanned⟩ := pops
  rw [h.scanned] at scanned
  rw [Except.ok.inj scanned]
  rfl

/-- In every program the forward search from an opening finds the first place behind it up to which
the program is level again, which is a closing bracket, and a machine that skips the loop fails
exactly if there is no such place.  In an accepted program each loop is closed, and the bracket that
the search finds is the one at which the check of the brackets takes the loop off its list; each
closing bracket is found from one opening; and however a machine with the program is stepped through
it, at the bracket it holds the loop as the innermost one. -/
theorem pairings_agree (p : Program) :
    (∀ start, p[start]? = some .openLoop →
      (∀ close, p.closeOf? start = some close ↔ IsLeast (levelBehind p.toList start) close) ∧
      (∀ close, p.closeOf? start = some close → p[close]? = some .closeLoop) ∧
      ∀ m : Machine, m.program = p → m.position = start → m.tape.read = 0 →
        ((∃ next, m.step = .failed (.unmatchedOpen start) next) ↔
          levelBehind p.toList start = ∅)) ∧
    (p.checkBrackets = .ok () →
      (∀ start, p[start]? = some .openLoop →
        ∃ close, p.closeOf? start = some close ∧ ∀ i, PopsAt p.toList start i ↔ i = close) ∧
      (∀ close, p[close]? = some .closeLoop →
        ∃! start, p[start]? = some .openLoop ∧ p.closeOf? start = some close) ∧
      ∀ start close, p[start]? = some .openLoop → p.closeOf? start = some close →
        ∀ (s : Machine) walk m, (∀ op ∈ walk, op.walks = true) →
          performAll walk (s.load p) = some m → m.position = close →
            m.openLoops.head? = some start) := by
  have listed : ∀ (k : Nat) (i : Instruction), p[k]? = some i ↔ p.toList[k]? = some i := by
    intro k i
    rw [Array.getElem?_toList]
  refine ⟨fun start opens => ?_, fun accepted => ⟨fun start opens => ?_, fun close closes => ?_,
    fun start close opens found s walk m walks reached here => ?_⟩⟩
  · have opens' := (listed start _).mp opens
    refine ⟨fun close => ?_, fun close found => ?_, ?_⟩
    · rw [Program.closeOf?_eq_some_iff opens', closedBy_iff_isLeast opens']
    · exact (listed close _).mpr (Program.closedBy_of_closeOf? opens' found).closes
    · rintro m rfl rfl zero
      rw [step_eq_unmatchedOpen_iff opens zero, Program.closeOf?_eq_none_iff opens']
  · have opens' := (listed start _).mp opens
    obtain ⟨close, closed⟩ := Program.exists_closedBy accepted opens'
    have found := (Program.closeOf?_eq_some_iff opens').mpr closed
    refine ⟨close, found, fun i => ?_⟩
    rw [Program.popsAt_iff_closeOf? accepted opens', found, Option.some_inj, eq_comm]
  · obtain ⟨start, pops⟩ := Program.exists_popsAt accepted ((listed close _).mp closes)
    have opens := pops.closedBy.opens
    refine ⟨start, ⟨(listed start _).mpr opens,
      (Program.popsAt_iff_closeOf? accepted opens).mp pops⟩, ?_⟩
    rintro other ⟨opens', found⟩
    have pops' := (Program.popsAt_iff_closeOf? accepted ((listed other _).mp opens')).mpr found
    exact pops'.unique pops
  · obtain ⟨rfl, nested⟩ := nested_of_walk walks reached
    subst here
    exact nested.openLoops_of_popsAt
      ((Program.popsAt_iff_closeOf? accepted ((listed start _).mp opens)).mpr found)

/-- A loop inside another one, and a machine at the bracket that closes it. -/
theorem pairings_agree_nested :
    ∃ (p : Program) (m : Machine), p = Program.ofText "+[[-]>]" ∧
      performAll [.step, .step, .step, .step]
        ((onTape (Tape.blank 1 2 (by decide) (by decide)) false (.bytes [])).load p) = some m ∧
      m.position = 4 ∧ p.closeOf? 2 = some 4 ∧ IsLeast (levelBehind p.toList 2) 4 ∧
      PopsAt p.toList 2 4 ∧ m.openLoops.head? = some 2 := by
  obtain ⟨m, reached, there⟩ : ∃ m, performAll [.step, .step, .step, .step]
      ((onTape (Tape.blank 1 2 (by decide) (by decide)) false (.bytes [])).load
        (Program.ofText "+[[-]>]")) = some m ∧ m.position = 4 := by
    exact ⟨_, rfl, rfl⟩
  have opens : (Program.ofText "+[[-]>]")[2]? = some .openLoop := rfl
  have found : (Program.ofText "+[[-]>]").closeOf? 2 = some 4 := rfl
  obtain ⟨places, accepted⟩ := pairings_agree (Program.ofText "+[[-]>]")
  obtain ⟨closed, _, held⟩ := accepted rfl
  obtain ⟨close, same, pops⟩ := closed 2 opens
  have fourth : 4 = close := Option.some.inj (found.symm.trans same)
  exact ⟨_, m, rfl, reached, there, found, ((places 2 opens).1 4).mp found, (pops 4).mpr fourth,
    held 2 4 opens found _ _ m (by decide) reached there⟩

end Machine

end Brainfuck
