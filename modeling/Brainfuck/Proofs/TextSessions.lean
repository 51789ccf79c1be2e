import Brainfuck.Proofs.DecodedLines
import Brainfuck.Proofs.Forgetting

/-! # Sessions on bytes and sessions on a text

The lines of a session come from the bytes that its programs read too, or from a text of its own.
While no program reads, it does not matter which: the bytes and the text that they decode to make
the same session.

* `Machine.withInput`, `Shell.withInput` — the same with another input;
* `Machine.commasOf`, `Shell.Quiet` — how many `,` a program carries out, and a session whose
  programs carry out none;
* `Turn.onText`, `turn_onText` — a turn of a session on bytes, as the session on the text takes it;
* `session_of_text` — a quiet session is the same on bytes and on the text.

A prompt of the one session is that of the other with the bytes that are left, decoded
(`Shell.onText`).  That is kept from turn to turn, for decoding goes line by line, and then it holds
of the whole sessions by induction on the rounds.
-/

namespace Brainfuck

namespace Machine

variable {m : Machine} {own : Input}

/-! ## A machine with another input -/

/-- The machine with another input. -/
def withInput (own : Input) (m : Machine) : Machine :=
  { m with input := own }

@[simp] theorem program_withInput (own : Input) (m : Machine) :
    (m.withInput own).program = m.program := rfl

theorem record_withInput (own : Input) (m : Machine) (i : Instruction) :
    (m.withInput own).record i = (m.record i).withInput own := by
  cases on : m.tracing <;> simp [record, withInput, on]

theorem effectOf_withInput (own : Input) (m : Machine) :
    (m.withInput own).effectOf = m.effectOf := by
  funext i
  cases i <;> rfl

theorem carryOut_withInput (own : Input) (m : Machine) {e : Effect} (other : e ≠ .input) :
    (m.withInput own).carryOut e = (m.carryOut e).withInput own := by
  cases e with
  | input => contradiction
  | _ => rfl

/-- Only a `,` looks at the input. -/
theorem step_withInput (own : Input) (quiet : m.current? ≠ some .input) :
    (m.withInput own).step = m.step.map (withInput own) := by
  cases stepped : m.step with
  | halted =>
    have ended : m.current? = none := step_eq_halted_iff.mp stepped
    exact step_eq_halted_iff.mpr ended
  | ran next =>
    obtain ⟨i, e, here, does, rfl⟩ := step_eq_ran_iff.mp stepped
    have other : e ≠ .input := by
      rintro rfl
      obtain rfl : Instruction.input = i := instruction_of_effectOf does
      exact quiet here
    refine step_eq_ran_iff.mpr ⟨i, e, here, by rwa [effectOf_withInput], ?_⟩
    rw [record_withInput, carryOut_withInput own _ other]
  | failed fault next =>
    obtain ⟨i, here, fails, rfl⟩ := step_eq_failed_iff.mp stepped
    refine step_eq_failed_iff.mpr ⟨i, here, by rwa [effectOf_withInput], ?_⟩
    rw [record_withInput]

/-! ## Runs that read nothing -/

/-- A number of steps with no `,` begins with another instruction, and none is behind that. -/
theorem commas_succ_eq_zero_iff {n : Nat} :
    m.commas (n + 1) = 0 ↔
      m.current? ≠ some .input ∧ ∀ next, m.step = .ran next → next.commas n = 0 := by
  rw [commas]
  by_cases reads : m.current? = some .input
  · obtain ⟨next, stepped, _⟩ := read_of_input_step reads
    simp [stepped, reads]
  · cases m.step <;> simp [reads]

theorem taken_of_commas {n : Nat} (quiet : m.commas n = 0) : m.taken n = [] := by
  induction n generalizing m with
  | zero => rfl
  | succ n ih =>
    obtain ⟨other, onward⟩ := commas_succ_eq_zero_iff.mp quiet
    rw [taken]
    cases stepped : m.step with
    | ran next => simp [takes?, other, ih (onward next stepped)]
    | _ => rfl

theorem commas_withInput_eq_zero_iff {n : Nat} :
    (m.withInput own).commas n = 0 ↔ m.commas n = 0 := by
  induction n generalizing m with
  | zero => rfl
  | succ n ih =>
    rw [commas_succ_eq_zero_iff, commas_succ_eq_zero_iff]
    -- up to the first `,` the two machines go the same way, and that is all that is asked for
    refine and_congr_right fun (other : m.current? ≠ some .input) => ?_
    rw [step_withInput own other]
    cases m.step <;> simp [Step.map, ih]

theorem run_withInput (own : Input) {fuel : Nat} (quiet : m.commas fuel = 0) :
    run fuel (m.withInput own) =
      (run fuel m).map fun (last, outcome) => (last.withInput own, outcome) := by
  induction fuel generalizing m with
  | zero => rfl
  | succ fuel ih =>
    obtain ⟨other, onward⟩ := commas_succ_eq_zero_iff.mp quiet
    rw [run_succ, run_succ, step_withInput own other]
    cases stepped : m.step with
    | ran next => exact ih (onward next stepped)
    | _ => rfl

/-- How many `,` an execution carries out within a number of steps. -/
def commasOf (fuel : Nat) (m : Machine) : Nat :=
  match m.program.checkBrackets with
  | .error _ => 0
  | .ok _ => m.reset.commas fuel

theorem commasOf_withInput_eq_zero_iff {fuel : Nat} :
    (m.withInput own).commasOf fuel = 0 ↔ m.commasOf fuel = 0 := by
  rw [commasOf, commasOf, program_withInput]
  cases m.program.checkBrackets with
  | error error => rfl
  | ok _ => exact commas_withInput_eq_zero_iff (m := m.reset)

theorem bytesRead_of_commasOf {fuel : Nat} (quiet : m.commasOf fuel = 0) :
    m.bytesRead fuel = [] := by
  rw [commasOf] at quiet
  rw [bytesRead]
  cases checked : m.program.checkBrackets with
  | error error => rfl
  | ok _ =>
    rw [checked] at quiet
    exact taken_of_commas quiet

/-- An execution that carries out no `,` is the same on every input. -/
theorem execute_withInput (own : Input) {fuel : Nat} (quiet : m.commasOf fuel = 0) :
    (m.withInput own).execute fuel = (m.execute fuel).map (Prod.map (withInput own) id) := by
  rw [commasOf] at quiet
  cases checked : m.program.checkBrackets with
  | error error =>
    rw [execute_of_rejected checked, execute_of_rejected (m := m.withInput own) checked]
    rfl
  | ok _ =>
    rw [checked] at quiet
    have ran : run fuel (m.withInput own).reset = _ := run_withInput (m := m.reset) own quiet
    rw [execute_of_accepted checked, execute_of_accepted (m := m.withInput own) checked, ran,
      Option.map_map, Option.map_map]
    rfl

end Machine

/-! ## A shell with another input -/

/-- The shell with another input for its programs. -/
def Shell.withInput (own : Input) (s : Shell) : Shell :=
  { s with machine := s.machine.withInput own }

def Reply.withInput (own : Input) (reply : Reply) : Reply :=
  { reply with shell := reply.shell.withInput own }

namespace Shell

open Utf8 (decodeLossy)

variable {fuel rounds : Nat} {w : Workplace} {s : Shell} {c : Command} {own : Input} {feed : Feed}
  {S : List UInt8}

@[simp] theorem settings_withInput (own : Input) (s : Shell) :
    (s.withInput own).settings = s.settings := rfl

@[simp] theorem source_withInput (own : Input) (s : Shell) :
    (s.withInput own).source = s.source := rfl

/-- How many `,` the program carries out that a command starts. -/
def commasBy (fuel : Nat) (s : Shell) (c : Command) : Nat :=
  if c = .run ∧ s.source ≠ "" then s.machine.commasOf fuel else 0

theorem commasBy_withInput_eq_zero_iff :
    (s.withInput own).commasBy fuel c = 0 ↔ s.commasBy fuel c = 0 := by
  rw [commasBy, commasBy, source_withInput]
  split
  · exact Machine.commasOf_withInput_eq_zero_iff
  · rfl

theorem readBy_of_commasBy (quiet : s.commasBy fuel c = 0) : s.readBy fuel c = [] := by
  unfold commasBy at quiet
  unfold readBy
  split
  · rename_i starts
    rw [if_pos starts] at quiet
    exact Machine.bytesRead_of_commasOf quiet
  · rfl

theorem runLoaded_withInput (own : Input) (quiet : s.commasBy fuel .run = 0) :
    (s.withInput own).runLoaded fuel = (s.runLoaded fuel).map (Reply.withInput own) := by
  by_cases empty : s.source = ""
  · simp only [runLoaded, source_withInput, empty]
    rfl
  · have loaded : (s.withInput own).source ≠ "" := empty
    rw [commasBy, if_pos ⟨rfl, empty⟩] at quiet
    have same : (s.withInput own).machine.execute fuel = _ := Machine.execute_withInput own quiet
    cases ended : s.machine.execute fuel with
    | none =>
      rw [ended] at same
      rw [runLoaded_of_unfinished empty ended, runLoaded_of_unfinished loaded same]
      rfl
    | some result =>
      rw [ended] at same
      rw [runLoaded_of_execute empty ended, runLoaded_of_execute loaded same]
      rfl

/-- A command does the same with another input, unless it starts a program that carries out a
`,`. -/
theorem perform_withInput (own : Input) (w : Workplace) (quiet : s.commasBy fuel c = 0) :
    (s.withInput own).perform fuel w c = (s.perform fuel w c).map (Reply.withInput own) := by
  cases c with
  | load path =>
    cases path with
    | none => rfl
    | some path =>
      rw [perform_load, perform_load, loadFile, loadFile, settings_withInput]
      split
      · rfl
      · cases readProgramFile w path s.settings.maxFileSize with
        | ok source => rfl
        | error e => cases e <;> rfl
  | code source =>
    cases source with
    | none => rfl
    | some source =>
      change Except.ok ((s.withInput own).loadCode source) = .ok ((s.loadCode source).withInput own)
      rw [loadCode, loadCode, settings_withInput]
      split <;> rfl
  | run => exact runLoaded_withInput own quiet
  | help =>
    rw [perform_help, perform_help, settings_withInput]
    cases Numeral.write? s.settings.maxCells <;> rfl
  | dump request =>
    cases request with
    | none => rfl
    | some request =>
      change Except.ok ((s.withInput own).showTape (some request)) =
        .ok ((s.showTape (some request)).withInput own)
      simp only [showTape]
      rw [settings_withInput]
      split <;> rfl
  | debug on => cases on <;> rfl
  | «show» =>
    change Except.ok (s.withInput own).showSource = .ok (s.showSource.withInput own)
    rw [showSource, showSource, source_withInput]
    split <;> rfl
  | _ => rfl

/-! ## A turn -/

/-- How many `,` are carried out between a prompt and the next one. -/
def commasAt (fuel : Nat) (s : Shell) (feed : Feed) : Nat :=
  match s.settings.prompt.toString?, s.nextLine feed with
  | some _, some (line, now, _) => now.commasBy fuel (Command.ofLine (.ofChars line))
  | _, _ => 0

/-- The prompt of a session on a text at which a session on bytes has some left. -/
def onText (own : Input) (s : Shell) : Shell × Feed :=
  (s.withInput own, .text (decodeLossy s.unread))

def Turn.onText (own : Input) : Turn → Turn
  | .next s _ writes => .next (s.withInput own) (.text (decodeLossy s.unread)) writes
  | .over s writes => .over (s.withInput own) writes
  | .interrupted s writes cause => .interrupted (s.withInput own) writes cause

/-- The next line of the decoded text is the next line of the bytes, decoded. -/
theorem nextLine_onText (own : Input) (s : Shell) :
    (s.withInput own).nextLine (.text (decodeLossy s.unread)) =
      (s.nextLine .shared).map fun (line, now, _) =>
        (line, now.withInput own, .text (decodeLossy now.unread)) := by
  by_cases empty : s.unread = []
  · rw [nextLine_of_empty empty, empty]
    rfl
  · have left : decodeLossy s.unread ≠ [] := fun none =>
      empty (Utf8.decodeLossy_eq_nil_iff.mp none)
    rw [nextLine_of_ne_nil empty, nextLine_of_text left, Utf8.splitLine_decodeLossy]
    rfl

theorem commasAt_onText_eq_zero_iff :
    commasAt fuel (s.withInput own) (.text (decodeLossy s.unread)) = 0 ↔
      commasAt fuel s .shared = 0 := by
  rw [commasAt, commasAt, nextLine_onText, settings_withInput]
  cases s.settings.prompt.toString? with
  | none => rfl
  | some prompt =>
    cases s.nextLine .shared with
    | none => rfl
    | some taken => exact commasBy_withInput_eq_zero_iff

/-- A turn that carries out no `,` is the same on the bytes and on the text. -/
theorem turn_onText (own : Input) (w : Workplace) (quiet : commasAt fuel s .shared = 0) :
    (s.withInput own).turn fuel w (.text (decodeLossy s.unread)) =
      (s.turn fuel w .shared).onText own := by
  rw [turn, turn, settings_withInput]
  cases written : s.settings.prompt.toString? with
  | none => rfl
  | some prompt =>
    by_cases empty : s.unread = []
    · simp only [turnAfter, nextLine_onText, nextLine_of_empty empty]
      rfl
    · have silent : s.behindLine.commasBy fuel s.nextCommand = 0 := by
        rw [commasAt, written, nextLine_of_ne_nil empty] at quiet
        exact quiet
      have asked : Command.ofLine (.ofChars (decodeLossy s.lineBytes)) = s.nextCommand := rfl
      simp only [turnAfter, nextLine_onText, nextLine_of_ne_nil empty, Option.map_some, handle,
        asked]
      rw [perform_withInput own w silent]
      cases answered : s.behindLine.perform fuel w s.nextCommand with
      | error cause => rfl
      | ok reply =>
        -- the program has read nothing, so what was behind the line is still there
        have kept : s.behindLine.unread = reply.shell.unread := by
          have whole := (unread_of_perform answered rfl).1
          rwa [readBy_of_commasBy silent, List.nil_append] at whole
        have goes : (reply.withInput own).keep = reply.keep := rfl
        simp only [Except.map, goes, kept]
        split <;> rfl

/-! ## The prompts of a session -/

/-- The prompts of a session, each with what is there to be read, and of them no more than a
bound. -/
def prompts (fuel : Nat) (w : Workplace) : (rounds : Nat) → Shell → Feed → List (Shell × Feed)
  | 0, _, _ => []
  | rounds + 1, s, feed =>
    (s, feed) ::
      match s.turn fuel w feed with
      | .next next feed _ => prompts fuel w rounds next feed
      | _ => []

/-- No program of the session carries out a `,` within the bound on its steps. -/
def Quiet (fuel : Nat) (w : Workplace) (s : Shell) (feed : Feed) : Prop :=
  ∀ p ∈ prompts fuel w (s.unreadLength feed + 1) s feed, commasAt fuel p.1 p.2 = 0

instance : Decidable (Quiet fuel w s feed) :=
  inferInstanceAs (Decidable (∀ p ∈ _, _))

/-- How a session comes to its end. -/
inductive Farewell where
  /-- A line asks to leave. -/
  | asked (line : List Char)
  | outOfLines
  | interrupted (cause : Interruption)
  deriving DecidableEq, Repr

/-- The end that a session comes to at a prompt, if it does not go on. -/
def farewell? (fuel : Nat) (w : Workplace) (s : Shell) (feed : Feed) : Option Farewell :=
  match s.turn fuel w feed with
  | .next .. => none
  | .over .. => some ((s.nextLine feed).elim .outOfLines fun taken => .asked taken.1)
  | .interrupted _ _ cause => some (.interrupted cause)

/-- The end that a session comes to at the last of so many prompts. -/
def endWithin? (fuel : Nat) (w : Workplace) (rounds : Nat) (s : Shell) (feed : Feed) :
    Option Farewell :=
  (prompts fuel w rounds s feed).getLast?.bind fun p => farewell? fuel w p.1 p.2

/-- The end of a session. -/
def sessionEnd? (fuel : Nat) (w : Workplace) (s : Shell) (feed : Feed) : Option Farewell :=
  endWithin? fuel w (s.unreadLength feed + 1) s feed

theorem prompts_of_unreadLength_lt (enough : s.unreadLength feed < rounds) (k : Nat) :
    prompts fuel w (rounds + k) s feed = prompts fuel w rounds s feed := by
  induction rounds generalizing s feed with
  | zero => omega
  | succ rounds ih =>
    rw [Nat.succ_add, prompts, prompts]
    cases went : s.turn fuel w feed with
    | next next behind writes =>
      have shorter := unreadLength_of_turn went
      exact congrArg _ (ih (by omega))
    | «over» => rfl
    | interrupted => rfl

/-- Any number of rounds is enough for the whole session that is larger than what there is to
read. -/
theorem prompts_eq (enough : s.unreadLength feed < rounds) :
    prompts fuel w (s.unreadLength feed + 1) s feed = prompts fuel w rounds s feed := by
  obtain ⟨k, rfl⟩ := Nat.exists_eq_add_of_le enough
  exact (prompts_of_unreadLength_lt (Nat.lt_succ_self _) k).symm

theorem session_eq (enough : s.unreadLength feed < rounds) :
    session fuel w s feed = converse fuel w rounds [.text banner] s feed := by
  obtain ⟨k, rfl⟩ := Nat.exists_eq_add_of_le enough
  exact (converse_of_unreadLength_lt (Nat.lt_succ_self _) _ k).symm

theorem sessionEnd?_eq (enough : s.unreadLength feed < rounds) :
    sessionEnd? fuel w s feed = endWithin? fuel w rounds s feed := by
  rw [sessionEnd?, endWithin?, prompts_eq enough, ← endWithin?]

theorem turns_succ (fuel : Nat) (w : Workplace) (rounds : Nat) (s : Shell) :
    turns fuel w (rounds + 1) s =
      s :: match s.turn fuel w .shared with
        | .next next _ _ => turns fuel w rounds next
        | _ => [] := by
  rw [turns]
  cases s.turn fuel w .shared <;> rfl

/-- The prompts of a session on bytes are those of its turns. -/
theorem prompts_shared (fuel : Nat) (w : Workplace) (rounds : Nat) (s : Shell) :
    prompts fuel w rounds s .shared = (turns fuel w rounds s).map (·, .shared) := by
  induction rounds generalizing s with
  | zero => rfl
  | succ rounds ih =>
    rw [prompts, turns_succ, List.map_cons]
    cases went : s.turn fuel w .shared with
    | next next feed writes =>
      obtain ⟨_, _, rfl, _⟩ := turn_eq_next went
      exact congrArg _ (ih next)
    | _ => rfl

/-- Every session comes to an end. -/
theorem exists_farewell (fuel : Nat) (w : Workplace) (enough : s.unreadLength feed < rounds) :
    ∃ close, endWithin? fuel w rounds s feed = some close := by
  induction rounds generalizing s feed with
  | zero => omega
  | succ rounds ih =>
    rw [endWithin?, prompts]
    cases went : s.turn fuel w feed with
    | next next behind writes =>
      have shorter := unreadLength_of_turn went
      have enough' : next.unreadLength behind < rounds := by omega
      obtain ⟨close, ends⟩ := ih enough'
      -- there is a last prompt behind this one, and it is the last of all
      obtain ⟨last, found, closes⟩ := Option.bind_eq_some_iff.mp ends
      refine ⟨close, ?_⟩
      rw [List.getLast?_cons, found]
      exact closes
    | _ => simp [farewell?, went]

/-! ## Sessions -/

theorem quiet_onText_iff (own : Input) (rounds : Nat) :
    (∀ p ∈ prompts fuel w rounds (s.withInput own) (.text (decodeLossy s.unread)),
        commasAt fuel p.1 p.2 = 0) ↔
      ∀ now ∈ turns fuel w rounds s, commasAt fuel now .shared = 0 := by
  induction rounds generalizing s with
  | zero => simp [prompts, turns]
  | succ rounds ih =>
    -- the turns go the same way only behind a quiet prompt, so this one is looked at first
    rw [prompts, turns_succ, List.forall_mem_cons, List.forall_mem_cons,
      commasAt_onText_eq_zero_iff]
    refine and_congr_right fun quiet => ?_
    rw [turn_onText own w quiet]
    cases s.turn fuel w .shared with
    | next next feed writes => exact ih
    | _ => simp [Turn.onText]

theorem prompts_onText (own : Input)
    (quiet : ∀ now ∈ turns fuel w rounds s, commasAt fuel now .shared = 0) :
    prompts fuel w rounds (s.withInput own) (.text (decodeLossy s.unread)) =
      (turns fuel w rounds s).map (onText own) := by
  induction rounds generalizing s with
  | zero => rfl
  | succ rounds ih =>
    rw [turns_succ, List.forall_mem_cons] at quiet
    rw [prompts, turns_succ, turn_onText own w quiet.1, List.map_cons]
    cases went : s.turn fuel w .shared with
    | next next feed writes =>
      rw [went] at quiet
      exact congrArg _ (ih quiet.2)
    | _ => rfl

/-- The session on the text, as the session on the bytes is left. -/
theorem converse_onText (own : Input) (written : List Write)
    (quiet : ∀ now ∈ turns fuel w rounds s, commasAt fuel now .shared = 0) :
    let bytes := converse fuel w rounds written s .shared
    converse fuel w rounds written (s.withInput own) (.text (decodeLossy s.unread)) =
      ⟨bytes.shell.withInput own, bytes.writes, bytes.interruption⟩ := by
  induction rounds generalizing s written with
  | zero => rfl
  | succ rounds ih =>
    rw [turns_succ, List.forall_mem_cons] at quiet
    rw [converse, converse, turn_onText own w quiet.1]
    cases went : s.turn fuel w .shared with
    | next next feed writes =>
      obtain ⟨_, _, rfl, _⟩ := turn_eq_next went
      rw [went] at quiet
      exact ih _ quiet.2
    | _ => rfl

theorem farewell?_onText (own : Input) (quiet : commasAt fuel s .shared = 0) :
    farewell? fuel w (s.withInput own) (.text (decodeLossy s.unread)) =
      farewell? fuel w s .shared := by
  rw [farewell?, farewell?, turn_onText own w quiet, nextLine_onText]
  cases s.turn fuel w .shared with
  | «over» => cases s.nextLine .shared <;> rfl
  | _ => rfl

/-- The last prompt is the same one, so the end is the same as well. -/
theorem endWithin?_onText (own : Input)
    (quiet : ∀ now ∈ turns fuel w rounds s, commasAt fuel now .shared = 0) :
    endWithin? fuel w rounds (s.withInput own) (.text (decodeLossy s.unread)) =
      endWithin? fuel w rounds s .shared := by
  rw [endWithin?, endWithin?, prompts_onText own quiet, prompts_shared, List.getLast?_map,
    List.getLast?_map]
  cases found : (turns fuel w rounds s).getLast? with
  | none => rfl
  | some last => exact farewell?_onText own (quiet last (List.mem_of_getLast? found))

/-- A session on bytes and a session on the text that they decode to, with whatever is ill-formed in
them, where no program of the one or of the other carries out a `,`.  Whatever the settings, the
files and the bound on the steps, both write the same, text of the shell and bytes of the programs,
in the same order.  They leave the same shell but for the input, with the same trace, and they come
to the same end: the same line that asks to leave, no more lines, or the same interruption. -/
theorem session_of_text (w : Workplace) (own : Input) (shared : s.machine.input = .bytes S)
    (quiet : Quiet fuel w s .shared ∨
      Quiet fuel w (s.withInput own) (.text (decodeLossy S))) :
    let bytes := session fuel w s .shared
    let text := session fuel w (s.withInput own) (.text (decodeLossy S))
    text.writes = bytes.writes ∧ text.shell = bytes.shell.withInput own ∧
    text.shell.machine.trace = bytes.shell.machine.trace ∧
    text.interruption = bytes.interruption ∧
    ∃ close, sessionEnd? fuel w s .shared = some close ∧
      sessionEnd? fuel w (s.withInput own) (.text (decodeLossy S)) = some close := by
  intro bytes text
  obtain rfl : s.unread = S := unread_of_bytes shared
  -- the text may be shorter than the bytes, so the rounds are as many as are enough for both
  let rounds := s.unreadLength .shared + (decodeLossy s.unread).length + 1
  have enough : s.unreadLength .shared < rounds := by omega
  have enough' : (s.withInput own).unreadLength (.text (decodeLossy s.unread)) < rounds := by
    simp only [unreadLength]
    omega
  have quiet : ∀ now ∈ turns fuel w rounds s, commasAt fuel now .shared = 0 := by
    rcases quiet with quiet | quiet
    · rw [Quiet, prompts_eq enough, prompts_shared, List.forall_mem_map] at quiet
      exact quiet
    · rw [Quiet, prompts_eq enough', quiet_onText_iff] at quiet
      exact quiet
  have same : text = ⟨bytes.shell.withInput own, bytes.writes, bytes.interruption⟩ := by
    have whole : bytes = converse fuel w rounds [.text banner] s .shared := session_eq enough
    rw [whole]
    exact (session_eq enough').trans (converse_onText own _ quiet)
  obtain ⟨close, ends⟩ := exists_farewell fuel w enough
  rw [same]
  exact ⟨rfl, rfl, rfl, rfl, close, (sessionEnd?_eq enough).trans ends,
    ((sessionEnd?_eq enough').trans (endWithin?_onText own quiet)).trans ends⟩

/-- A byte that is ill-formed in a program, a line of nothing but the start of a character, and a
program that is run twice. -/
theorem session_of_text_illFormed :
    ∃ s : Shell, s.machine.input = .bytes (Utf8.bytesOf "code +" ++ [0xFF, 46, 10, 114, 10, 0xE2,
        0x82, 10] ++ Utf8.bytesOf "r\nq") ∧
      (session 9 (.ofEntries []) (s.withInput .broken)
        (.text "code +\uFFFD.\nr\n\uFFFD\nr\nq".toList)).writes =
          (session 9 (.ofEntries []) s .shared).writes ∧
      sessionEnd? 9 (.ofEntries []) s .shared = some (.asked ['q']) := by
  let s := start {} (Machine.onTape (Tape.blank 1 1 (by decide) (by decide)) false
    (.bytes (Utf8.bytesOf "code +" ++ [0xFF, 46, 10, 114, 10, 0xE2, 0x82, 10] ++
      Utf8.bytesOf "r\nq")))
  have quiet : Quiet 9 (.ofEntries []) s .shared := by decide +kernel
  have decoded : decodeLossy (Utf8.bytesOf "code +" ++ [0xFF, 46, 10, 114, 10, 0xE2, 0x82, 10] ++
      Utf8.bytesOf "r\nq") = "code +\uFFFD.\nr\n\uFFFD\nr\nq".toList := by
    decide +kernel
  have same := session_of_text (s := s) (.ofEntries []) .broken rfl (.inl quiet)
  rw [decoded] at same
  exact ⟨s, rfl, same.1, by decide +kernel⟩

end Shell

end Brainfuck
