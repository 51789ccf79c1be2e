import Brainfuck.Proofs.Commands
import Brainfuck.Proofs.Reading
import Brainfuck.Shell.Session

/-! # Lines and programs that share an input

The lines of a session and the programs that they start read from the same bytes.  What is handed
out, to the shell as a line and to a program byte by byte, is the front of the input, in order.

* `Chunk`, `handedOut` — the pieces that one turn hands out;
* `turns` — the shells at the prompts of a session;
* `turns_split` — what is handed out before a prompt and what is left at the prompt are the input;
* `session_of_bytes` — where each piece comes from, and that a session ends.

A line is never empty, so what is left is shorter at each prompt than at the one before
(`length_of_turn`).  That bounds the number of turns, whatever the programs do with their part, and
with it there are only so many programs to wait for (`exists_fuel`).
-/

namespace Brainfuck

/-- A piece of a shared input: a line for the shell, or one byte for a `,`. -/
inductive Chunk where
  | line (bytes : List UInt8)
  | byte (value : UInt8)
  deriving DecidableEq, Repr

def Chunk.bytes : Chunk → List UInt8
  | .line bytes => bytes
  | .byte value => [value]

/-- The bytes of some pieces, one piece behind the other. -/
def Chunk.joined (chunks : List Chunk) : List UInt8 :=
  chunks.flatMap Chunk.bytes

namespace Chunk

@[simp] theorem joined_nil : joined [] = [] := rfl

@[simp] theorem joined_cons (c : Chunk) (chunks : List Chunk) :
    joined (c :: chunks) = c.bytes ++ joined chunks := rfl

@[simp] theorem joined_append (first second : List Chunk) :
    joined (first ++ second) = joined first ++ joined second := by
  simp [joined]

@[simp] theorem joined_map_byte (values : List UInt8) : joined (values.map byte) = values := by
  induction values with
  | nil => rfl
  | cons value rest ih => simp [bytes, ih]

end Chunk

namespace Shell

variable {fuel more : Nat} {w : Workplace} {s next : Shell} {feed : Feed} {said : List Write}
  {S : List UInt8}

/-! ## One line -/

def unread (s : Shell) : List UInt8 :=
  s.machine.input.unread

/-- The bytes of the next line, with its line end. -/
def lineBytes (s : Shell) : List UInt8 :=
  (Text.splitLine 10 s.unread).1

/-- The shell behind the next line. -/
def behindLine (s : Shell) : Shell :=
  { s with machine := { s.machine with input := .bytes (Text.splitLine 10 s.unread).2 } }

/-- The command of the next line. -/
def nextCommand (s : Shell) : Command :=
  Command.ofLine (.ofChars (Utf8.decodeLossy s.lineBytes))

theorem unread_of_bytes (shared : s.machine.input = .bytes S) : s.unread = S := by
  rw [unread, shared]
  rfl

theorem unread_behindLine (s : Shell) : s.unread = s.lineBytes ++ s.behindLine.unread :=
  (Text.splitLine_append 10 s.unread).symm

theorem nextLine_of_empty (empty : s.unread = []) : s.nextLine .shared = none := by
  unfold nextLine
  cases given : s.machine.input with
  | broken => rfl
  | bytes left =>
    rw [unread_of_bytes given] at empty
    rw [empty]

theorem nextLine_of_ne_nil (left : s.unread ≠ []) :
    s.nextLine .shared = some (Utf8.decodeLossy s.lineBytes, s.behindLine, .shared) := by
  unfold nextLine
  cases given : s.machine.input with
  | broken =>
    rw [unread, given] at left
    contradiction
  | bytes S =>
    rw [unread_of_bytes given] at left
    have same := unread_of_bytes given
    cases S with
    | nil => contradiction
    | cons b rest =>
      rw [lineBytes, behindLine, same]

theorem nextLine_of_text {rest : List Char} (left : rest ≠ []) :
    s.nextLine (.text rest) =
      some ((Text.splitLine '\n' rest).1, s, .text (Text.splitLine '\n' rest).2) := by
  cases rest with
  | nil => contradiction
  | cons c rest => rfl

/-! ## What a command reads -/

/-- The bytes that a program reads which a command starts. -/
def readBy (fuel : Nat) (s : Shell) (c : Command) : List UInt8 :=
  if c = .run ∧ s.source ≠ "" then s.machine.bytesRead fuel else []

theorem readBy_prefix_unread (fuel : Nat) (s : Shell) (c : Command) :
    s.readBy fuel c <+: s.unread := by
  unfold readBy
  split
  · exact s.machine.bytesRead_prefix_unread fuel
  · exact List.nil_prefix

theorem unread_of_perform {c : Command} {reply : Reply} (answered : s.perform fuel w c = .ok reply)
    (shared : s.machine.input = .bytes s.unread) :
    s.unread = s.readBy fuel c ++ reply.shell.unread ∧
      reply.shell.machine.input = .bytes reply.shell.unread := by
  by_cases starts : c = .run ∧ s.source ≠ ""
  · rw [readBy, if_pos starts]
    obtain ⟨rfl, loaded⟩ := starts
    rw [perform_run, runLoaded, if_neg (by simpa using loaded)] at answered
    split at answered
    · cases answered
    · rename_i last report ended
      cases answered
      -- what the program has not read is left to the next line
      exact ⟨Machine.unread_of_execute ended, Machine.input_of_execute ended shared⟩
  · rw [readBy, if_neg starts, List.nil_append]
    -- every other command leaves the input alone
    have kept : reply.shell.machine.input = s.machine.input := by
      cases perform_answers answered with
      | ran loaded _ => exact absurd ⟨rfl, loaded⟩ starts
      | _ => rfl
    rw [unread, unread, kept]
    exact ⟨rfl, shared⟩

/-! ## One turn -/

/-- The pieces that a turn hands out, in order. -/
def handedOut (fuel : Nat) (s : Shell) : List Chunk :=
  if s.settings.prompt.toString? = none ∨ s.unread = [] then []
  else .line s.lineBytes :: (s.behindLine.readBy fuel s.nextCommand).map .byte

theorem joined_handedOut_prefix_unread (fuel : Nat) (s : Shell) :
    Chunk.joined (s.handedOut fuel) <+: s.unread := by
  unfold handedOut
  split
  · exact List.nil_prefix
  · rw [Chunk.joined_cons, Chunk.joined_map_byte, unread_behindLine]
    exact (List.prefix_append_right_inj _).mpr (readBy_prefix_unread _ _ _)

/-- A turn that goes on has taken a line and answered it. -/
theorem exists_line_of_turn {behind : Feed} (went : s.turn fuel w feed = .next next behind said) :
    s.settings.prompt.toString? ≠ none ∧ ∃ line now reply,
      s.nextLine feed = some (line, now, behind) ∧
      now.handle fuel w (.ofChars line) = .ok reply ∧ reply.shell = next := by
  unfold turn turnAfter at went
  split at went
  · cases went
  · rename_i prompt written
    split at went
    · cases went
    · rename_i line now rest taken
      split at went
      · cases went
      · rename_i reply answered
        split at went
        · cases went
          exact ⟨by simp [written], line, now, reply, taken, answered, rfl⟩
        · cases went

theorem turn_eq_next (went : s.turn fuel w .shared = .next next feed said) :
    s.settings.prompt.toString? ≠ none ∧ s.unread ≠ [] ∧ feed = .shared ∧
      ∃ reply, s.behindLine.perform fuel w s.nextCommand = .ok reply ∧ reply.shell = next := by
  obtain ⟨written, line, now, reply, taken, answered, same⟩ := exists_line_of_turn went
  by_cases empty : s.unread = []
  · rw [nextLine_of_empty empty] at taken
    cases taken
  · rw [nextLine_of_ne_nil empty] at taken
    cases taken
    exact ⟨written, empty, rfl, reply, answered, same⟩

theorem turn_eq_over {last : Shell} (ended : s.turn fuel w .shared = .over last said) :
    ∃ front ending, said = front ++ [.text (ending ++ "Goodbye!\n")] := by
  unfold turn at ended
  split at ended
  · cases ended
  · rename_i prompt _
    unfold turnAfter at ended
    split at ended
    · cases ended
      exact ⟨[.text prompt], "\nBye!\n", rfl⟩
    · split at ended
      · cases ended
      · rename_i reply _
        split at ended
        · cases ended
        · cases ended
          exact ⟨.text prompt :: reply.writes, "", rfl⟩

theorem turn_eq_interrupted {last : Shell} {cause : Interruption}
    (stopped : s.turn fuel w .shared = .interrupted last said cause) :
    (s.settings.prompt.toString? = none ∧ cause = .unwritablePrompt) ∨
      s.behindLine.perform fuel w s.nextCommand = .error cause := by
  unfold turn at stopped
  split at stopped
  · rename_i unwritable
    cases stopped
    exact .inl ⟨unwritable, rfl⟩
  · by_cases empty : s.unread = []
    · rw [turnAfter, nextLine_of_empty empty] at stopped
      cases stopped
    · simp only [turnAfter, nextLine_of_ne_nil empty, handle] at stopped
      split at stopped
      · rename_i failed
        cases stopped
        exact .inr failed
      · split at stopped <;> cases stopped

theorem unread_of_turn (went : s.turn fuel w .shared = .next next feed said) :
    s.unread = Chunk.joined (s.handedOut fuel) ++ next.unread ∧
      next.machine.input = .bytes next.unread := by
  obtain ⟨written, left, _, reply, answered, rfl⟩ := turn_eq_next went
  obtain ⟨whole, shared⟩ := unread_of_perform answered rfl
  refine ⟨?_, shared⟩
  rw [handedOut, if_neg (by simp [written, left]), Chunk.joined_cons, Chunk.joined_map_byte,
    List.append_assoc, ← whole]
  exact s.unread_behindLine

theorem length_of_turn (went : s.turn fuel w .shared = .next next feed said) :
    next.unread.length < s.unread.length := by
  obtain ⟨written, left, _⟩ := turn_eq_next went
  obtain ⟨whole, _⟩ := unread_of_turn went
  have line : s.lineBytes ≠ [] := Text.splitLine_fst_ne_nil left
  rw [whole, handedOut, if_neg (by simp [written, left]), Chunk.joined_cons]
  have positive : 0 < s.lineBytes.length := List.length_pos_iff.mpr line
  simp only [Chunk.bytes, List.length_append]
  omega

/-- A line is never empty, so a turn that goes on leaves less to be read. -/
theorem unreadLength_of_turn {behind : Feed}
    (went : s.turn fuel w feed = .next next behind said) :
    next.unreadLength behind < s.unreadLength feed := by
  cases feed with
  | shared =>
    obtain ⟨_, _, rfl, _⟩ := turn_eq_next went
    exact length_of_turn went
  | text rest =>
    obtain ⟨_, line, now, reply, taken, _⟩ := exists_line_of_turn went
    by_cases empty : rest = []
    · subst empty
      cases taken
    · have whole := congrArg List.length (Text.splitLine_append '\n' rest)
      have positive : 0 < (Text.splitLine '\n' rest).1.length :=
        List.length_pos_iff.mpr (Text.splitLine_fst_ne_nil empty)
      rw [nextLine_of_text empty] at taken
      cases taken
      rw [List.length_append] at whole
      simp only [unreadLength]
      omega

theorem turn_of_le
    (calm : ∀ last said cause, s.turn fuel w .shared ≠ .interrupted last said cause)
    (le : fuel ≤ more) : s.turn more w .shared = s.turn fuel w .shared := by
  unfold turn turnAfter at calm ⊢
  split
  · rfl
  · rename_i prompt written
    rw [written] at calm
    split
    · rfl
    · rename_i line behind feed taken
      simp only [taken] at calm
      cases answered : behind.handle fuel w (.ofChars line) with
      | error cause =>
        rw [answered] at calm
        exact absurd rfl (calm _ _ _)
      | ok reply =>
        -- more steps do not change an answer
        have same : behind.handle more w (.ofChars line) = .ok reply := perform_of_le answered le
        rw [same]

/-! ## The turns of a session -/

/-- The shells at the prompts of a session, of which there are no more than a bound. -/
def turns (fuel : Nat) (w : Workplace) : (bound : Nat) → Shell → List Shell
  | 0, _ => []
  | bound + 1, s =>
    match s.turn fuel w .shared with
    | .next next _ _ => s :: turns fuel w bound next
    | _ => [s]

/-- The shells that a session can get to, with any bounds on the steps of its programs. -/
inductive Reaches (w : Workplace) : Shell → Shell → Prop
  | refl (s : Shell) : Reaches w s s
  | turn {s next last : Shell} {fuel : Nat} {feed : Feed} {writes : List Write}
    (went : s.turn fuel w .shared = .next next feed writes) (onward : Reaches w next last) :
    Reaches w s last

theorem length_turns_le (fuel : Nat) (w : Workplace) (bound : Nat) (s : Shell) :
    (turns fuel w bound s).length ≤ s.unread.length + 1 := by
  induction bound generalizing s with
  | zero => simp [turns]
  | succ bound ih =>
    rw [turns]
    split
    · rename_i next feed writes went
      have shorter := length_of_turn went
      have rest := ih next
      simp only [List.length_cons]
      omega
    · simp

theorem turns_eq_cons {bound : Nat} {now : Shell} {later : List Shell}
    (begun : turns fuel w bound s = now :: later) :
    now = s ∧ (later = [] ∨ ∃ next feed writes left,
      s.turn fuel w .shared = .next next feed writes ∧ turns fuel w left next = later) := by
  cases bound with
  | zero => cases begun
  | succ bound =>
    rw [turns] at begun
    split at begun
    · rename_i next feed writes went
      cases begun
      exact ⟨rfl, .inr ⟨next, feed, writes, bound, went, rfl⟩⟩
    · cases begun
      exact ⟨rfl, .inl rfl⟩

/-- Nothing is lost between two prompts, and a session goes on from each of its prompts. -/
theorem turns_split {bound : Nat} {before later : List Shell} {now : Shell}
    (split : turns fuel w bound s = before ++ now :: later) :
    s.unread = Chunk.joined (before.flatMap (handedOut fuel)) ++ now.unread ∧
      ∃ left, turns fuel w left now = now :: later := by
  induction before generalizing s bound with
  | nil =>
    obtain ⟨rfl, _⟩ := turns_eq_cons split
    exact ⟨rfl, bound, split⟩
  | cons first before ih =>
    obtain ⟨rfl, none | ⟨next, feed, writes, left, went, rest⟩⟩ := turns_eq_cons split
    · simp at none
    · obtain ⟨whole, onward⟩ := ih rest
      refine ⟨?_, onward⟩
      rw [(unread_of_turn went).1, whole]
      simp

/-- A session gets to no other shells than those at its prompts, with other bounds either. -/
theorem mem_turns_of_reaches {now : Shell} {bound : Nat} (reached : Reaches w s now)
    (enough : s.unread.length < bound)
    (calm : ∀ shell ∈ turns fuel w bound s, ∀ last said cause,
      shell.turn fuel w .shared ≠ .interrupted last said cause) :
    now ∈ turns fuel w bound s := by
  induction reached generalizing bound with
  | refl s =>
    cases bound with
    | zero => omega
    | succ bound =>
      rw [turns]
      split <;> exact List.mem_cons_self
  | @turn s next now other feed said went onward ih =>
    cases bound with
    | zero => omega
    | succ bound =>
      have shorter := length_of_turn went
      have mine : ∀ last said cause, s.turn fuel w .shared ≠ .interrupted last said cause := by
        refine calm s ?_
        rw [turns]
        split <;> exact List.mem_cons_self
      have theirs : ∀ last said cause, s.turn other w .shared ≠ .interrupted last said cause := by
        simp [went]
      -- neither bound interrupts the turn, so it does not matter which is the larger one
      have went : s.turn fuel w .shared = .next next feed said := by
        rcases Nat.le_total fuel other with le | le
        · rw [← turn_of_le mine le, went]
        · rw [turn_of_le theirs le, went]
      rw [turns, went] at calm ⊢
      exact List.mem_cons_of_mem _ (ih (by omega) fun shell member =>
        calm shell (List.mem_cons_of_mem _ member))

theorem joined_turns_prefix_unread (fuel : Nat) (w : Workplace) (bound : Nat) (s : Shell) :
    Chunk.joined ((turns fuel w bound s).flatMap (handedOut fuel)) <+: s.unread := by
  rcases (turns fuel w bound s).eq_nil_or_concat with none | ⟨before, last, some⟩
  · rw [none]
    exact List.nil_prefix
  · rw [some, (turns_split (by rw [some, List.concat_eq_append])).1]
    simp only [List.concat_eq_append, List.flatMap_append, List.flatMap_singleton,
      Chunk.joined_append]
    exact (List.prefix_append_right_inj _).mpr (joined_handedOut_prefix_unread fuel last)

/-! ## The end of a session -/

def Turn.writes : Turn → List Write
  | .next _ _ writes => writes
  | .over _ writes => writes
  | .interrupted _ writes _ => writes

theorem writes_converse (fuel : Nat) (w : Workplace) (rounds : Nat) (written : List Write)
    (s : Shell) :
    (converse fuel w rounds written s .shared).writes =
      written.reverse ++
        (turns fuel w rounds s).flatMap fun now => (now.turn fuel w .shared).writes := by
  induction rounds generalizing s written with
  | zero => simp [converse, turns]
  | succ rounds ih =>
    rw [converse, turns]
    cases went : s.turn fuel w .shared with
    | next next feed writes =>
      obtain ⟨_, _, rfl, _⟩ := turn_eq_next went
      simp [ih, went, Turn.writes]
    | «over» last writes => simp [went, Turn.writes]
    | interrupted last writes cause => simp [went, Turn.writes]

/-- With more rounds than there is to read it is not for the number of rounds that a session
ends. -/
theorem converse_of_unreadLength_lt {rounds : Nat} (enough : s.unreadLength feed < rounds)
    (written : List Write) (k : Nat) :
    converse fuel w (rounds + k) written s feed = converse fuel w rounds written s feed := by
  -- a turn that goes on takes a round and leaves less to be read
  induction rounds generalizing s feed written with
  | zero => omega
  | succ rounds ih =>
    rw [Nat.succ_add, converse, converse]
    cases went : s.turn fuel w feed with
    | next next behind writes =>
      have shorter := unreadLength_of_turn went
      exact ih (by omega) _
    | «over» => rfl
    | interrupted => rfl

theorem converse_of_lt {rounds : Nat} (enough : s.unread.length < rounds) (written : List Write)
    (k : Nat) :
    converse fuel w (rounds + k) written s .shared = converse fuel w rounds written s .shared :=
  converse_of_unreadLength_lt enough written k

theorem goodbye_of_converse {rounds : Nat} {written : List Write}
    (enough : s.unread.length < rounds)
    (calm : (converse fuel w rounds written s .shared).interruption = none) :
    ∃ front ending, (converse fuel w rounds written s .shared).writes =
      front ++ [.text (ending ++ "Goodbye!\n")] := by
  induction rounds generalizing s written with
  | zero => omega
  | succ rounds ih =>
    rw [converse] at calm ⊢
    cases went : s.turn fuel w .shared with
    | next next feed writes =>
      obtain ⟨_, _, rfl, _⟩ := turn_eq_next went
      have shorter := length_of_turn went
      rw [went] at calm
      exact ih (by omega) calm
    | «over» last writes =>
      obtain ⟨front, ending, rfl⟩ := turn_eq_over went
      exact ⟨written.reverse ++ front, ending, by simp⟩
    | interrupted last writes cause =>
      rw [went] at calm
      cases calm

/-- If each turn ends on its own with enough steps, then one number of steps is enough for all. -/
theorem exists_fuel (calm : ∀ now, Reaches w s now → ∃ fuel, ∀ last writes cause,
      now.turn fuel w .shared ≠ .interrupted last writes cause) :
    ∃ fuel, ∀ more ≥ fuel, ∀ rounds written,
      (converse more w rounds written s .shared).interruption = none := by
  -- the bytes that are left become fewer from turn to turn
  induction size : s.unread.length using Nat.strongRecOn generalizing s with
  | ind size ih =>
    obtain ⟨first, ends⟩ := calm s (.refl s)
    cases went : s.turn first w .shared with
    | next next feed writes =>
      obtain ⟨_, _, rfl, _⟩ := turn_eq_next went
      have shorter := length_of_turn went
      obtain ⟨rest, onward⟩ :=
        ih _ (by omega) (fun now reached => calm now (.turn went reached)) rfl
      refine ⟨max first rest, fun more enough rounds written => ?_⟩
      cases rounds with
      | zero => rfl
      | succ rounds =>
        rw [converse, turn_of_le ends (by omega), went]
        exact onward more (by omega) rounds _
    | «over» last writes =>
      refine ⟨first, fun more enough rounds written => ?_⟩
      cases rounds with
      | zero => rfl
      | succ rounds => rw [converse, turn_of_le ends enough, went]
    | interrupted last writes cause => exact absurd went (ends _ _ _)

/-- Whatever is missing for a turn is steps for its program, if there is no other cause. -/
theorem exists_turn_fuel
    (halts : s.nextCommand = .run → s.source ≠ "" →
      ∃ fuel result, s.behindLine.machine.execute fuel = some result)
    (calm : ∀ fuel last writes cause,
      s.turn fuel w .shared = .interrupted last writes cause → cause = .unfinished) :
    ∃ fuel, ∀ last writes cause, s.turn fuel w .shared ≠ .interrupted last writes cause := by
  obtain ⟨fuel, ends⟩ := Machine.exists_execute_ne_none
    fun starts : s.nextCommand = .run ∧ s.source ≠ "" => halts starts.1 starts.2
  refine ⟨fuel, fun last writes cause stopped => ?_⟩
  obtain rfl := calm fuel last writes cause stopped
  -- of what can interrupt a turn only a program has to do with its number of steps
  rcases turn_eq_interrupted stopped with ⟨_, other⟩ | failed
  · cases other
  · obtain ⟨run, loaded, unfinished, _⟩ | ⟨_, _, other⟩ | ⟨_, _, _, _, _, other⟩ :=
      perform_eq_error failed
    · exact ends ⟨run, loaded⟩ unfinished
    · cases other
    · cases other

/-! ## Sessions -/

/-- What one turn hands out: the line up to the first line end, and behind it to a program that the
line runs one byte for each `,`, in order, or none where nothing is left. -/
structure HandsOut (fuel : Nat) (s : Shell) : Prop where
  handedOut_eq : s.handedOut fuel =
    .line s.lineBytes :: (s.behindLine.readBy fuel s.nextCommand).map .byte
  nextLine_eq : s.nextLine .shared = some (Utf8.decodeLossy s.lineBytes, s.behindLine, .shared)
  line_ends : ∃ body, 10 ∉ body ∧
    (s.lineBytes = body ++ [10] ∨ s.lineBytes = body ∧ s.behindLine.unread = [])
  unread_eq : s.unread = s.lineBytes ++ s.behindLine.unread
  read_eq : s.nextCommand = .run → s.source ≠ "" → ∀ n m,
    s.behindLine.machine.reset.after n = some m → m.current? = some .input →
    ∃ next, m.step = .ran next ∧
      next.tape.read = (s.behindLine.unread[s.behindLine.machine.reset.commas n]?).getD 0

theorem handsOut_of_ne_nil (left : s.unread ≠ []) (written : s.settings.prompt.toString? ≠ none)
    (fuel : Nat) : s.HandsOut fuel where
  handedOut_eq := if_neg (by simp [written, left])
  nextLine_eq := nextLine_of_ne_nil left
  line_ends := Text.splitLine_cases 10 s.unread
  unread_eq := s.unread_behindLine
  read_eq := fun _ _ _ _ reached here => Machine.read_of_input reached here

/-- A session whose lines come from the bytes that its programs read too.  However far it gets, what
it hands out is the front of the bytes, in order, and at each prompt the rest is what is left; with
nothing left that is the last prompt.  Each turn that goes on leaves fewer bytes, so there are no
more prompts than bytes, and one.  If every program that is started ends and nothing else interrupts
a turn, the session ends with its farewell. -/
theorem session_of_bytes (w : Workplace) (shared : s.machine.input = .bytes S) :
    (∀ fuel bound,
      let shells := turns fuel w bound s
      let given := fun part => Chunk.joined (part.flatMap (handedOut fuel))
      shells.length ≤ S.length + 1 ∧
      given shells <+: S ∧
      ∀ before now later, shells = before ++ now :: later →
        S = given before ++ now.unread ∧
        (now.unread = [] → later = [] ∧ given shells = S) ∧
        (now.unread ≠ [] → now.settings.prompt.toString? ≠ none → now.HandsOut fuel) ∧
        ∀ next, later.head? = some next →
          now.unread = Chunk.joined (now.handedOut fuel) ++ next.unread ∧
          next.unread.length < now.unread.length) ∧
    (∀ fuel rounds, S.length < rounds →
      session fuel w s .shared = converse fuel w rounds [.text banner] s .shared ∧
      (session fuel w s .shared).writes = .text banner ::
        (turns fuel w rounds s).flatMap fun now => (now.turn fuel w .shared).writes) ∧
    ((∀ now, Reaches w s now → now.nextCommand = .run → now.source ≠ "" →
        ∃ fuel result, now.behindLine.machine.execute fuel = some result) →
      (∀ now fuel last writes cause, Reaches w s now →
        now.turn fuel w .shared = .interrupted last writes cause → cause = .unfinished) →
      ∃ fuel, ∀ more ≥ fuel,
        (session more w s .shared).interruption = none ∧
        ∃ front ending, (session more w s .shared).writes =
          front ++ [.text (ending ++ "Goodbye!\n")]) := by
  have whole : s.unread = S := unread_of_bytes shared
  refine ⟨fun fuel bound => ⟨?_, ?_, fun before now later split => ?_⟩,
    fun fuel rounds enough => ?_, fun halts calm => ?_⟩
  · exact whole ▸ length_turns_le fuel w bound s
  · exact whole ▸ joined_turns_prefix_unread fuel w bound s
  · obtain ⟨conserved, left, onward⟩ := turns_split split
    rw [whole] at conserved
    obtain ⟨_, last | ⟨next, feed, writes, _, went, rest⟩⟩ := turns_eq_cons onward
    · subst last
      refine ⟨conserved, fun empty => ⟨rfl, ?_⟩,
        fun left written => handsOut_of_ne_nil left written _, by simp⟩
      have nothing : now.handedOut fuel = [] := if_pos (.inr empty)
      rw [conserved, empty, split]
      simp [nothing]
    · refine ⟨conserved, fun empty => absurd empty (turn_eq_next went).2.1,
        fun left written => handsOut_of_ne_nil left written _, fun follower first => ?_⟩
      -- the prompt behind is the one that the turn leads to
      obtain ⟨later', rfl⟩ := List.head?_eq_some_iff.mp first
      obtain ⟨rfl, _⟩ := turns_eq_cons rest
      exact ⟨(unread_of_turn went).1, length_of_turn went⟩
  · have rounds_eq : rounds = S.length + 1 + (rounds - (S.length + 1)) := by omega
    have same : session fuel w s .shared = converse fuel w rounds [.text banner] s .shared := by
      rw [rounds_eq, converse_of_lt (by rw [whole]; omega), session, unreadLength, ← whole, unread]
    exact ⟨same, by rw [same, writes_converse]; rfl⟩
  · obtain ⟨fuel, ends⟩ := exists_fuel (w := w) (s := s) fun now reached =>
      exists_turn_fuel (halts now reached) fun fuel last writes cause =>
        calm now fuel last writes cause reached
    refine ⟨fuel, fun more enough => ⟨ends more enough _ _, ?_⟩⟩
    exact goodbye_of_converse (Nat.lt_succ_self _) (ends more enough _ _)

/-- A program that reads one byte of a line leaves the rest of it as a command, which runs the
program again on the line behind it. -/
theorem session_of_bytes_leftover :
    ∃ s : Shell, s.machine.input = .bytes (Utf8.bytesOf "code ,.\nr\nxr\nq\n") ∧
      (turns 10 (.ofEntries []) 20 s).flatMap (handedOut 10) =
        [.line (Utf8.bytesOf "code ,.\n"), .line (Utf8.bytesOf "r\n"), .byte 120,
          .line (Utf8.bytesOf "r\n"), .byte 113, .line [10]] ∧
      ∃ fuel, ∀ more ≥ fuel,
        (session more (.ofEntries []) s .shared).interruption = none ∧
        ∃ front ending, (session more (.ofEntries []) s .shared).writes =
          front ++ [.text (ending ++ "Goodbye!\n")] := by
  let w : Workplace := .ofEntries []
  let s := start {} (Machine.onTape (Tape.blank 1 1 (by decide) (by decide)) false
    (.bytes (Utf8.bytesOf "code ,.\nr\nxr\nq\n")))
  have pieces : (turns 10 w 20 s).flatMap (handedOut 10) =
      [.line (Utf8.bytesOf "code ,.\n"), .line (Utf8.bytesOf "r\n"), .byte 120,
        .line (Utf8.bytesOf "r\n"), .byte 113, .line [10]] := by
    decide +kernel
  have turnsOf : ∀ shell ∈ turns 10 w 20 s, shell.settings.prompt.toString? ≠ none ∧
      shell.nextCommand ∈ [.code (some ",."), .run, .blank] ∧
      (shell.nextCommand = .run → (shell.behindLine.machine.execute 10).isSome) := by
    decide +kernel
  -- what could interrupt a turn is only the bound on the steps of its program
  have causes : ∀ shell ∈ turns 10 w 20 s, ∀ fuel last said cause,
      shell.turn fuel w .shared = .interrupted last said cause →
        cause = .unfinished ∧ shell.nextCommand = .run ∧
          shell.behindLine.machine.execute fuel = none := by
    intro shell member fuel last said cause stopped
    obtain ⟨writable, expected, _⟩ := turnsOf shell member
    rcases turn_eq_interrupted stopped with ⟨unwritable, _⟩ | failed
    · exact absurd unwritable writable
    · obtain ⟨run, _, unfinished, rfl⟩ | ⟨help, _⟩ | ⟨path, fault, load, _⟩ :=
        perform_eq_error failed
      · exact ⟨rfl, run, unfinished⟩
      · simp [help] at expected
      · simp [load] at expected
  have reachable : ∀ now, Reaches w s now → now ∈ turns 10 w 20 s := by
    intro now reached
    refine mem_turns_of_reaches reached (by decide +kernel) ?_
    intro shell member last said cause stopped
    obtain ⟨_, run, unfinished⟩ := causes shell member 10 last said cause stopped
    have ends := (turnsOf shell member).2.2 run
    rw [unfinished] at ends
    cases ends
  obtain ⟨_, _, farewell⟩ := session_of_bytes (s := s) w rfl
  obtain ⟨fuel, ends⟩ := farewell
    (fun now reached run _ =>
      ⟨10, Option.isSome_iff_exists.mp ((turnsOf now (reachable now reached)).2.2 run)⟩)
    (fun now fuel last said cause reached stopped =>
      (causes now (reachable now reached) fuel last said cause stopped).1)
  exact ⟨s, rfl, pieces, fuel, ends⟩

end Shell

end Brainfuck
