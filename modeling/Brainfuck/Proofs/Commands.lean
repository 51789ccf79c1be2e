import Brainfuck.Proofs.Numerals
import Brainfuck.Proofs.ProgramFiles
import Brainfuck.Proofs.Stepping
import Brainfuck.Shell

/-! # What a command does

What becomes of a shell by a command, said once, and what a command is answered with.

* `Answers` — the answers that a command can have (`perform_answers`);
* `perform_eq_error` — the three ways in which a command can stay without an answer;
* `Refuses` — what can be wrong with a command, in the words of the answer;
* `Unanswerable` — a path that the system cannot be given, and a cap that cannot be written;
* `handle_answered_iff` — every other line has an answer, if the program that it starts ends.

A bound on the steps of a program matters to a single command.  More of them change no answer
(`perform_of_le`), so that a line whose program ends has one answer from some bound on.
-/

namespace Brainfuck

namespace Command

/-- The words that end a session. -/
def leaveWords : List String := ["exit", "quit", "q"]

/-- The words of a command that looks at nothing behind its word. -/
def names : Command → List String
  | leave => leaveWords
  | help => ["help", "h"]
  | run => ["run", "r"]
  | reset => ["reset"]
  | «show» => ["show", "s"]
  | clear => ["clear", "c"]
  | status => ["status"]
  | _ => []

theorem ofWords_eq_iff {c : Command} {word : LooseText} {args : List LooseText}
    (plain : c.names ≠ []) : ofWords word args = c ↔ ∃ name ∈ c.names, word = name := by
  constructor
  · rintro rfl
    unfold ofWords at plain ⊢
    split <;> simp_all [names, leaveWords, LooseText.toString?_eq_some_iff]
  · rintro ⟨name, member, rfl⟩
    have spelled : (LooseText.ofString name).toString? = some name :=
      LooseText.toString?_eq_some_iff.mpr rfl
    revert member
    rw [ofWords, spelled]
    cases c <;> simp +contextual [names, leaveWords, or_imp]

/-- A command that is known by its word is that of every line that begins with the word. -/
theorem ofLine_eq_iff {c : Command} (plain : c.names ≠ []) {line : LooseText} :
    ofLine line = c ↔ ∃ name ∈ c.names, line.words.head? = some ↑name := by
  unfold ofLine
  split
  · have other : Command.blank ≠ c := by
      rintro rfl
      exact plain rfl
    simp [*]
  · rename_i word args found
    rw [ofWords_eq_iff plain, found]
    simp

theorem ofLine_eq_leave_iff {line : LooseText} :
    ofLine line = .leave ↔ ∃ name ∈ leaveWords, line.words.head? = some ↑name :=
  ofLine_eq_iff (by simp [names, leaveWords])

end Command

namespace Shell

variable {fuel more : Nat} {w : Workplace} {s : Shell} {c : Command} {reply : Reply}

theorem hasDotPair_iff {points : List CodePoint} :
    hasDotPair points = true ↔ [.char '.', .char '.'] <:+: points := by
  induction points using hasDotPair.induct with
  | case1 rest => simp [hasDotPair, List.infix_cons_iff]
  | case2 c rest other ih =>
    rw [hasDotPair, ih, List.infix_cons_iff]
    · constructor
      · exact .inr
      · rintro (⟨tail, front⟩ | inside)
        · simp only [List.cons_append, List.nil_append, List.cons.injEq] at front
          exact (other tail front.1.symm front.2.symm).elim
        · exact inside
    · exact other
  | case3 => simp [hasDotPair]

/-! ## The commands that can stay without an answer -/

theorem perform_load (fuel : Nat) (w : Workplace) (s : Shell) (path : LooseText) :
    s.perform fuel w (.load (some path)) = s.loadFile w path := rfl

theorem perform_load_of_read {path : LooseText} {source : String}
    (plain : ¬ [.char '.', .char '.'] <:+: path.points)
    (read : readProgramFile w path s.settings.maxFileSize = .ok source) :
    s.perform fuel w (.load (some path)) = .ok (s.install source (" from " ++ path)) := by
  rw [perform_load, loadFile, if_neg fun dots => plain (hasDotPair_iff.mp dots), read]

theorem perform_load_of_badPath {path : LooseText} {fault : PathFault}
    (plain : ¬ [.char '.', .char '.'] <:+: path.points) (bad : path.systemPath = .error fault) :
    s.perform fuel w (.load (some path)) = .error (.badPath fault) := by
  rw [perform_load, loadFile, if_neg fun dots => plain (hasDotPair_iff.mp dots),
    readProgramFile_eq_badPath_iff.mpr bad]

theorem perform_run (fuel : Nat) (w : Workplace) (s : Shell) :
    s.perform fuel w .run = s.runLoaded fuel := rfl

theorem perform_help (fuel : Nat) (w : Workplace) (s : Shell) :
    s.perform fuel w .help =
      (Numeral.write? s.settings.maxCells).elim (.error .numeralTooLong) fun cells =>
        .ok (s.answer [s!"{helpText}{cells} cells"]) := by
  -- the numeral stays closed: its limit is a power that nothing should compute
  delta perform
  dsimp only
  cases Numeral.write? s.settings.maxCells <;> rfl

/-! ## What becomes of the shell -/

/-- The source that a command puts in: that of a file that can be read, or a typed one that is not
too long. -/
def takes? (w : Workplace) (s : Shell) : Command → Option LooseText
  | .load (some path) =>
    if hasDotPair path.points then none
    else (readProgramFile w path s.settings.maxFileSize).toOption.map .ofString
  | .code (some source) => if s.settings.maxCodeLength < source.length then none else some source
  | _ => none

/-- What is said about how a run ended. -/
def failureLines : Option Failure → List LooseText
  | none => []
  | some f => ["", s!"Error: {f.message}", "Program failed."]

theorem runLoaded_of_execute {last : Machine} {report : Report} (loaded : s.source ≠ "")
    (ended : s.machine.execute fuel = some (last, report)) :
    s.runLoaded fuel =
      .ok ⟨{ s with machine := last }, true,
        .program (last.output.extract s.machine.output.size last.output.size).toList ::
          (failureLines report.failure).map say⟩ := by
  have there : s.source.isEmpty = false := by simpa using loaded
  rw [runLoaded, there]
  simp only [ended, Bool.false_eq_true, if_false]
  cases report.failure <;> rfl

theorem runLoaded_of_unfinished (loaded : s.source ≠ "") (endless : s.machine.execute fuel = none) :
    s.runLoaded fuel = .error .unfinished := by
  have there : s.source.isEmpty = false := by simpa using loaded
  simp [runLoaded, there, endless]

/-- The answers that a command can have.  One that takes no source, does not run and switches
nothing only says something. -/
inductive Answers (fuel : Nat) (w : Workplace) (s : Shell) : Command → Reply → Prop
  | left : Answers fuel w s .leave ⟨s, false, []⟩
  | speaks {c : Command} (stays : c ≠ .leave) (nothing : s.takes? w c = none)
    (lines : List LooseText) : Answers fuel w s c (s.answer lines)
  | installs {c : Command} {source : LooseText} (taken : s.takes? w c = some source)
    (fromWhere : LooseText) : Answers fuel w s c (s.install source fromWhere)
  | ran {last : Machine} {report : Report} (loaded : s.source ≠ "")
    (ended : s.machine.execute fuel = some (last, report)) :
    Answers fuel w s .run
      ⟨{ s with machine := last }, true,
        .program (last.output.extract s.machine.output.size last.output.size).toList ::
          (failureLines report.failure).map say⟩
  | resets :
    Answers fuel w s .reset
      (answer { s with machine := s.machine.reset } ["Interpreter reset"])
  | traces (on : Bool) : Answers fuel w s (.debug (some on)) (s.setTracing (some on))
  | clears : Answers fuel w s .clear (answer { s with source := "" } ["Program cleared"])

theorem perform_answers (answered : s.perform fuel w c = .ok reply) :
    s.Answers fuel w c reply := by
  -- one case for every command that looks at something before it answers
  cases c with
  | load path =>
    cases path with
    | none =>
      cases answered
      exact .speaks (by simp) rfl _
    | some path =>
      rw [perform_load, loadFile] at answered
      split at answered
      · rename_i dots
        cases answered
        exact .speaks (by simp) (by simp [takes?, dots]) _
      · rename_i plain
        split at answered
        · cases answered
        · rename_i fails
          cases answered
          exact .speaks (by simp) (by simp [takes?, plain, fails, Except.toOption]) _
        · rename_i read
          cases answered
          exact .installs (by simp [takes?, plain, read, Except.toOption]) _
  | code source =>
    cases source with
    | none =>
      cases answered
      exact .speaks (by simp) rfl _
    | some source =>
      cases answered
      rw [loadCode]
      split
      · rename_i long
        exact .speaks (by simp) (by simp [takes?, long]) _
      · rename_i fits
        exact .installs (by simp [takes?, fits]) _
  | run =>
    rw [perform_run] at answered
    by_cases empty : s.source = ""
    · simp only [runLoaded, empty] at answered
      cases answered
      exact .speaks (by simp) rfl _
    · cases ended : s.machine.execute fuel with
      | none =>
        rw [runLoaded_of_unfinished empty ended] at answered
        cases answered
      | some result =>
        rw [runLoaded_of_execute empty ended] at answered
        cases answered
        exact .ran empty ended
  | help =>
    rw [perform_help] at answered
    cases written : Numeral.write? s.settings.maxCells with
    | none =>
      rw [written] at answered
      cases answered
    | some cells =>
      rw [written] at answered
      cases answered
      exact .speaks (by simp) rfl _
  | dump request =>
    cases answered
    cases request with
    | none => exact .speaks (by simp) rfl _
    | some request =>
      simp only [showTape]
      split <;> exact .speaks (by simp) rfl _
  | debug on =>
    cases on with
    | none =>
      cases answered
      exact .speaks (by simp) rfl _
    | some on =>
      cases answered
      exact .traces on
  | «show» =>
    cases answered
    unfold showSource
    split <;> exact .speaks (by simp) rfl _
  | leave =>
    cases answered
    exact .left
  | reset =>
    cases answered
    exact .resets
  | clear =>
    cases answered
    exact .clears
  | _ =>
    cases answered
    exact .speaks (by simp) rfl _

theorem settings_of_answers (answered : s.Answers fuel w c reply) :
    reply.shell.settings = s.settings := by
  cases answered <;> rfl

/-- The program that a command leaves in the machine: the one it loads, or else the one that was
there. -/
theorem program_of_answers (answered : s.Answers fuel w c reply) :
    reply.shell.machine.program =
      ((s.takes? w c).map Program.ofLoose).getD s.machine.program := by
  cases answered with
  | speaks _ nothing => simp [answer, nothing]
  | installs taken => simp [install, answer, taken, Machine.load]
  | ran _ ended => exact Machine.program_of_execute ended
  | _ => rfl

/-- Only the command to leave ends a session. -/
theorem keep_of_perform (answered : s.perform fuel w c = .ok reply) :
    reply.keep = false ↔ c = .leave := by
  cases perform_answers answered with
  | left => simp
  | speaks stays => simp [answer, stays]
  | installs taken =>
    have stays : c ≠ .leave := by
      rintro rfl
      cases taken
    simp [install, answer, stays]
  | _ => simp [answer, setTracing]

/-! ## Commands without an answer -/

theorem perform_eq_error {cause : Interruption} (h : s.perform fuel w c = .error cause) :
    (c = .run ∧ s.source ≠ "" ∧ s.machine.execute fuel = none ∧ cause = .unfinished) ∨
    (c = .help ∧ Numeral.write? s.settings.maxCells = none ∧ cause = .numeralTooLong) ∨
    (∃ path fault, c = .load (some path) ∧ ¬ [.char '.', .char '.'] <:+: path.points ∧
      path.systemPath = .error fault ∧ cause = .badPath fault) := by
  cases c with
  | load path =>
    cases path with
    | none => cases h
    | some path =>
      simp only [perform_load, loadFile] at h
      split at h
      · cases h
      · rename_i plain
        split at h
        · rename_i fault bad
          cases h
          exact .inr (.inr ⟨path, fault, rfl, fun dots => plain (hasDotPair_iff.mpr dots),
            readProgramFile_eq_badPath_iff.mp bad, rfl⟩)
        · cases h
        · cases h
  | code source => cases source <;> cases h
  | run =>
    simp only [perform_run, runLoaded] at h
    split at h
    · cases h
    · rename_i loaded
      split at h
      · rename_i unfinished
        cases h
        exact .inl ⟨rfl, by simpa using loaded, unfinished, rfl⟩
      · cases h
  | help =>
    rw [perform_help] at h
    cases written : Numeral.write? s.settings.maxCells with
    | none =>
      rw [written] at h
      cases h
      exact .inr (.inl ⟨rfl, rfl, rfl⟩)
    | some cells =>
      rw [written] at h
      cases h
  | _ => cases h

/-! ## More steps change no answer -/

theorem perform_of_le (answered : s.perform fuel w c = .ok reply) (le : fuel ≤ more) :
    s.perform more w c = .ok reply := by
  cases c with
  | run =>
    simp only [perform_run, runLoaded] at answered ⊢
    split at answered
    · rename_i empty
      rw [if_pos empty, answered]
    · rename_i loaded
      rw [if_neg loaded]
      split at answered
      · cases answered
      · rename_i ended
        rw [Machine.execute_of_le ended le]
        exact answered
  | load path => cases path <;> exact answered
  | code source => cases source <;> exact answered
  | help =>
    rw [perform_help] at answered ⊢
    exact answered
  | _ => exact answered

/-! ## What is wrong with a command -/

/-- What can be wrong with a command, in the words of the answer. -/
inductive Refuses (w : Workplace) (s : Shell) : Command → LooseText → Prop
  | noPath : Refuses w s (.load none) "Usage: load <file.bf>"
  | dotPair {path : LooseText} (dots : [.char '.', .char '.'] <:+: path.points) :
    Refuses w s (.load (some path)) "Error: Invalid filename"
  | badFile {path : LooseText} {e : ProgramFileError}
    (plain : ¬ [.char '.', .char '.'] <:+: path.points)
    (encodable : ∀ p ∈ path.points, p.isEncodable = true) (clean : .char '\x00' ∉ path.points)
    (fails : readProgramFile w path s.settings.maxFileSize = .error e) :
    Refuses w s (.load (some path)) ("Error: " ++ e.message)
  | noSource : Refuses w s (.code none) "Usage: code <program>"
  | tooLong {source : LooseText} (long : s.settings.maxCodeLength < source.length) :
    Refuses w s (.code (some source)) "Error: Program too long"
  | nothingLoaded (empty : s.source = "") : Refuses w s .run "No program loaded."
  | noNumbers : Refuses w s (.dump none) "Usage: dump [start] [count]"
  | negative {request : DumpRequest}
    (below : request.start < 0 ∨ request.count.getD s.settings.dumpCount < 0) :
    Refuses w s (.dump (some request)) "Usage: dump [start] [count]"
  | behindEnd {request : DumpRequest} (behind : (s.machine.tape.size : Int) ≤ request.start)
    (countable : 0 ≤ request.count.getD s.settings.dumpCount) :
    Refuses w s (.dump (some request))
      s!"Error: Start position {request.start} exceeds memory size {s.machine.tape.size}"
  | noSwitch : Refuses w s (.debug none) "Usage: debug [on|off]"
  | unknown (word : LooseText) : Refuses w s (.unknown word) ("Unknown command: " ++ word)

/-- A command that is refused is answered with what is wrong with it, and that is all. -/
theorem perform_of_refuses {text : LooseText} (refused : s.Refuses w c text) :
    s.perform fuel w c = .ok (s.answer [text]) := by
  cases refused with
  | dotPair dots =>
    rw [perform_load, loadFile, if_pos (hasDotPair_iff.mpr dots)]
  | @badFile path e plain encodable clean fails =>
    rw [perform_load, loadFile, if_neg fun dots => plain (hasDotPair_iff.mp dots), fails]
    cases e with
    | badPath fault => exact absurd fails (readProgramFile_ne_badPath fault encodable clean)
    | _ => rfl
  | tooLong long => exact congrArg Except.ok (if_pos long)
  | nothingLoaded empty => rw [perform_run, runLoaded, if_pos (by simp [empty])]
  | negative below => exact congrArg Except.ok (if_pos below)
  | @behindEnd request behind countable =>
    have inside : ¬ (request.start < 0 ∨ request.count.getD s.settings.dumpCount < 0) := by omega
    have positive : ¬ request.start < 0 := by omega
    have shown : s.machine.tape.dump request.start (request.count.getD s.settings.dumpCount) =
        s!"Error: Start position {request.start} exceeds memory size {s.machine.tape.size}" := by
      rw [Tape.dump, if_neg positive, if_pos behind]
    rw [← shown]
    exact congrArg Except.ok (if_neg inside)
  | _ => rfl

/-! ## Which lines are answered -/

/-- The commands that nothing answers: to load a file whose path has half of a surrogate pair that
stands for no byte, or a NUL, and to help where the cap of the tape is a number too long to be
written. -/
inductive Unanswerable (s : Shell) : Command → Prop
  | unencodable {path : LooseText} {p : CodePoint}
    (plain : ¬ [.char '.', .char '.'] <:+: path.points) (inside : p ∈ path.points)
    (homeless : p.isEncodable = false) : Unanswerable s (.load (some path))
  | nul {path : LooseText} (plain : ¬ [.char '.', .char '.'] <:+: path.points)
    (inside : .char '\x00' ∈ path.points) : Unanswerable s (.load (some path))
  | help (long : tenPow Numeral.maxDigits ≤ s.settings.maxCells.natAbs) : Unanswerable s .help

theorem unanswerable_load_iff {path : LooseText} :
    s.Unanswerable (.load (some path)) ↔
      ¬ [.char '.', .char '.'] <:+: path.points ∧ ∃ fault, path.systemPath = .error fault := by
  rw [LooseText.exists_systemPath_eq_error_iff]
  constructor
  · rintro (⟨plain, inside, homeless⟩ | ⟨plain, inside⟩)
    · exact ⟨plain, .inl ⟨_, inside, homeless⟩⟩
    · exact ⟨plain, .inr inside⟩
  · rintro ⟨plain, ⟨p, inside, homeless⟩ | inside⟩
    · exact .unencodable plain inside homeless
    · exact .nul plain inside

theorem exists_perform_eq_ok_iff
    (halts : c = .run → s.source ≠ "" → s.machine.execute fuel ≠ none) :
    (∃ reply, s.perform fuel w c = .ok reply) ↔ ¬ s.Unanswerable c := by
  constructor
  · rintro ⟨reply, answered⟩ unanswerable
    cases c with
    | load path =>
      cases path with
      | none => cases unanswerable
      | some path =>
        obtain ⟨plain, fault, bad⟩ := unanswerable_load_iff.mp unanswerable
        rw [perform_load_of_badPath plain bad] at answered
        cases answered
    | help =>
      cases unanswerable with
      | help long =>
      rw [perform_help, Numeral.write?_eq_none_iff.mpr long] at answered
      cases answered
    | _ => cases unanswerable
  · intro answerable
    cases performed : s.perform fuel w c with
    | ok reply => exact ⟨reply, rfl⟩
    | error cause =>
      obtain ⟨rfl, loaded, unfinished, _⟩ | ⟨rfl, long, _⟩ | ⟨path, fault, rfl, plain, bad, _⟩ :=
        perform_eq_error performed
      · exact absurd unfinished (halts rfl loaded)
      · exact absurd (.help (Numeral.write?_eq_none_iff.mp long)) answerable
      · exact absurd (unanswerable_load_iff.mpr ⟨plain, fault, bad⟩) answerable

/-- Whatever the state of a shell, the files and the line, with halves of surrogate pairs in it or
without: if the program that the line may start ends, then the line has an answer unless it is
unanswerable, and no other line stays without one.  The answer goes on with the session unless the
first word is one of those that end it.  A line with something wrong about it is answered with what
that is, and changes nothing. -/
theorem handle_answered_iff (w : Workplace) (s : Shell) (line : LooseText)
    (halts : Command.ofLine line = .run → s.source ≠ "" →
      ∃ fuel result, s.machine.execute fuel = some result) :
    ∃ fuel, ∀ more ≥ fuel,
      ((∃ reply, s.handle more w line = .ok reply) ↔ ¬ s.Unanswerable (Command.ofLine line)) ∧
      ∀ reply, s.handle more w line = .ok reply →
        (reply.keep = false ↔
          ∃ word ∈ Command.leaveWords, line.words.head? = some (.ofString word)) ∧
        ∀ text, s.Refuses w (Command.ofLine line) text → reply = s.answer [text] := by
  -- the bound is that of the program, if one is started at all
  obtain ⟨fuel, ends⟩ := Machine.exists_execute_ne_none
    fun starts : Command.ofLine line = .run ∧ s.source ≠ "" => halts starts.1 starts.2
  refine ⟨fuel, fun more enough => ⟨exists_perform_eq_ok_iff fun run loaded => ?_, ?_⟩⟩
  · obtain ⟨result, ended⟩ := Option.ne_none_iff_exists'.mp (ends ⟨run, loaded⟩)
    simp [Machine.execute_of_le ended enough]
  · intro reply answered
    refine ⟨(keep_of_perform answered).trans Command.ofLine_eq_leave_iff, fun text refused => ?_⟩
    rw [handle, perform_of_refuses refused] at answered
    exact (Except.ok.inj answered).symm

/-- A program with a loop is run to its end by a line with blanks around its word. -/
theorem handle_answered_iff_run :
    ∃ (s : Shell) (line : LooseText), Command.ofLine line = .run ∧ s.source = "++[-.]" ∧
      ∃ fuel, ∀ more ≥ fuel, ∃ reply,
        s.handle more (.ofEntries []) line = .ok reply ∧ reply.keep = true := by
  let machine := (Machine.onTape (Tape.blank 1 1 (by decide) (by decide)) false (.bytes [])).load
    (Program.ofText "++[-.]")
  have ends : (machine.execute 20).isSome = true := by decide +kernel
  have command : Command.ofLine " r\n" = .run := by decide +kernel
  have stays : ¬ ∃ word ∈ Command.leaveWords,
      (LooseText.ofString " r\n").words.head? = some (.ofString word) := by
    decide +kernel
  refine ⟨⟨{}, machine, "++[-.]"⟩, " r\n", command, rfl, ?_⟩
  obtain ⟨fuel, answers⟩ := handle_answered_iff (.ofEntries []) ⟨{}, machine, "++[-.]"⟩
    " r\n" fun _ _ => ⟨20, Option.isSome_iff_exists.mp ends⟩
  refine ⟨fuel, fun more enough => ?_⟩
  obtain ⟨answered, replies⟩ := answers more enough
  have answerable : ¬ Unanswerable ⟨{}, machine, "++[-.]"⟩ (Command.ofLine " r\n") := by
    rw [command]
    rintro ⟨⟩
  obtain ⟨reply, answered⟩ := answered.mpr answerable
  refine ⟨reply, answered, ?_⟩
  cases kept : reply.keep with
  | false => exact absurd ((replies reply answered).1.mp kept) stays
  | true => rfl

/-- A path with a NUL in it, and one with half of a surrogate pair, are refused by the system before
they are looked up, and no line of text tells of that. -/
theorem handle_load_badPath :
    let s := start {} (Machine.onTape (Tape.blank 1 1 (by decide) (by decide)) false (.bytes []))
    s.handle 9 (.ofEntries []) "load a\x00b" = .error (.badPath .nul) ∧
      s.handle 9 (.ofEntries []) ("load " ++ ⟨[.half 0]⟩) = .error (.badPath .unencodable) := by
  have nul : LooseText.systemPath "a\x00b" = .error .nul :=
    LooseText.systemPath_eq_nul_iff.mpr
      ⟨fun _ => LooseText.isEncodable_of_mem_ofString, by decide +kernel⟩
  have half : LooseText.systemPath ⟨[.half 0]⟩ = .error .unencodable :=
    LooseText.systemPath_eq_unencodable_iff.mpr ⟨.half 0, List.mem_cons_self, rfl⟩
  have loads : Command.ofLine "load a\x00b" = .load (some "a\x00b") := by decide +kernel
  have loads' : Command.ofLine ("load " ++ ⟨[.half 0]⟩) = .load (some ⟨[.half 0]⟩) := by
    decide +kernel
  constructor
  · rw [handle, loads, perform_load_of_badPath (by decide +kernel) nul]
  · rw [handle, loads', perform_load_of_badPath (by decide +kernel) half]

end Shell

end Brainfuck
