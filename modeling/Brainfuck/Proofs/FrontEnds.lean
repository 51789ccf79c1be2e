import Brainfuck.CommandLine
import Brainfuck.Proofs.Loaded

/-! # All front ends run the same program

A source reaches a machine in several ways: handed over, read from a file, typed as an argument of
the command line, or loaded by a line of the shell.  What is run and what is told of it is the same,
but for two dashes as an argument.

* `Outcome.Tells` — the command line tells the outcome of a run;
* `Shell.Plays` — so does a new shell that loads a program with a line and runs it;
* `front_ends_agree` — both do, for the sources that they all take.

A text goes different ways to the machine.  The shell takes it apart and joins its words again, and
that leaves the program as it is (`Program.ofChars_intercalate_words`).  The command line drops an
argument of two dashes.  These stand for a program with two steps, so the difference shows in the
trace and nowhere else.
-/

namespace Brainfuck

variable {fuel : Nat} {w : Workplace} {path : String} {bytes input : List UInt8} {c : Settings}
  {shown : RunOutcome}

/-! ## Runs under settings -/

namespace Machine

theorem exists_tape_of_check (valid : c.check = .ok ()) :
    ∃ tape, ∀ input, ofSettings? c input = .ok (onTape tape c.debug input) := by
  obtain ⟨positive, capped, _⟩ := Settings.check_eq_ok_iff.mp valid
  refine ⟨Tape.blank c.initialCells.toNat c.maxCells.toNat (by omega) (by omega), fun input => ?_⟩
  simp only [ofSettings?, new?, Tape.new?_of_le positive capped]
  rfl

/-- Two dashes are two steps, and these show in the trace only. -/
theorem shown_of_dashes {tape : Tape} {tracing : Bool}
    (ended : ((onTape tape tracing (.bytes input)).load (Program.ofText "--")).outcome fuel =
      .ok shown) :
    shown.output = [] ∧ shown.report.failure = none ∧ (shown.trace = [] ↔ tracing = false) ∧
      0 < fuel := by
  have early : ∀ k < 3,
      ((onTape tape tracing (.bytes input)).load (Program.ofText "--")).outcome k =
        .error .unfinished := by
    intro k short
    match k with
    | 0 => rfl
    | 1 => rfl
    | 2 => cases tracing <;> rfl
  have long : 3 ≤ fuel := by
    refine Nat.le_of_not_lt fun short => ?_
    rw [early fuel short] at ended
    cases ended
  obtain ⟨k, rfl⟩ := Nat.exists_eq_add_of_le' long
  cases tracing with
  | false =>
    cases ended
    exact ⟨rfl, rfl, iff_of_true rfl rfl, by omega⟩
  | true =>
    cases ended
    exact ⟨rfl, rfl, iff_of_false (List.cons_ne_nil _ _) (by decide), by omega⟩

end Machine

theorem runProgram_of_makes {tape : Tape}
    (makes : ∀ input, Machine.ofSettings? c input = .ok (.onTape tape c.debug input))
    (fuel : Nat) (p : Program) (input : List UInt8) :
    runProgram fuel p input false c =
      ((Machine.onTape tape c.debug (.bytes input)).load p).outcome fuel := by
  refine runProgram_of_start ?_ fuel
  rw [Machine.start?, makes]
  rfl

/-! ## Arguments -/

namespace CommandLine

theorem ofName?_eq_none {text : String} (value : '=' ∈ text.toList) : Flag.ofName? text = none := by
  have plain : ∀ entry ∈ Flag.directory, '=' ∉ entry.1.text.toList := by decide
  refine List.find?_eq_none.mpr fun entry member same => plain entry member ?_
  rw [beq_iff_eq.mp same]
  exact value

theorem Argument.ofText_of_no_dash (plain : path.toList.head? ≠ some '-') :
    Argument.ofText path = .ok (.plain path) := by
  unfold Argument.ofText
  split
  · rfl
  · rfl
  · rename_i cs _ dash
    rw [dash] at plain
    exact absurd rfl plain
  · rfl

theorem ofArguments_file (plain : path.toList.head? ≠ some '-') :
    Request.ofArguments [path] = .ok (.run { file := some path }) := by
  have other : path ≠ "--" := by
    rintro rfl
    exact plain (by decide)
  simp [Request.ofArguments, Argument.ofTexts, other, Argument.ofText_of_no_dash plain,
    Request.gather, bind, Except.bind, pure, Except.pure]

theorem ofArguments_code (source : String) :
    Request.ofArguments ["--code=" ++ source] =
      .ok (.run { code := some (attachedValue source.toList) }) := by
  have chars : ("--code=" ++ source).toList =
      '-' :: '-' :: 'c' :: 'o' :: 'd' :: 'e' :: '=' :: source.toList := by
    rw [String.toList_append]
    rfl
  have other : "--code=" ++ source ≠ "--" := by
    intro same
    have short := congrArg String.toList same
    rw [chars] at short
    cases short
  have none : Flag.ofName? ("--code=" ++ source) = none :=
    ofName?_eq_none (by simp [chars])
  have name : Flag.ofName? "--code" = some (.word "code", .code) := by decide
  have split : splitAtEquals ("--code=" ++ source).toList =
      ("--code".toList, some source.toList) := by
    rw [splitAtEquals, chars]
    rfl
  have code : Argument.ofText ("--code=" ++ source) =
      .ok (.flag .code false (some source.toList)) := by
    unfold Argument.ofText
    rw [none, split, chars]
    rfl
  simp only [Request.ofArguments, Argument.ofTexts, if_neg other, code, bind, Except.bind, pure,
    Except.pure]
  rfl

/-! ## What the command line tells -/

/-- The command line leaves behind the outcome of a run: what was put out, and behind the warnings
and the trace the reason why the run failed, if it did. -/
structure Outcome.Tells (o : Outcome) (shown : RunOutcome) : Prop where
  output_eq : o.output = shown.output
  trace_eq : o.trace = shown.trace
  status_eq : o.ending.status? = some (if shown.report.failure = none then 0 else 1)
  errors_eq : o.errors = o.notices ++
    match shown.report.failure with
    | none => ""
    | some f => s!"Error: {f.message}\n"

theorem Outcome.tells_ofRun (warnings : List String) (shown : RunOutcome) :
    ({ Outcome.ofRun (.ok shown) with warnings := warnings } : Outcome).Tells shown := by
  cases failed : shown.report.failure with
  | none => constructor <;> simp [Outcome.ofRun, Outcome.errors, Ending.status?, failed]
  | some f =>
    constructor <;>
      simp [Outcome.ofRun, Outcome.errors, Ending.status?, Complaint.status, Complaint.text, failed]

/-- How many steps there were is not told. -/
theorem Outcome.Tells.congr {o : Outcome} {other : RunOutcome} (h : o.Tells other)
    (output : other.output = shown.output) (trace : other.trace = shown.trace)
    (failure : other.report.failure = shown.report.failure) : o.Tells shown where
  output_eq := h.output_eq.trans output
  trace_eq := h.trace_eq.trans trace
  status_eq := by rw [← failure, h.status_eq]
  errors_eq := by rw [← failure, h.errors_eq]

theorem tells_of_perform {env : Environment} {arguments : List String} {i : Invocation}
    (asked : Request.ofArguments arguments = .ok (.run i))
    (loads : (loadSettings w env i.sources).2 = .ok c)
    (performed : i.perform fuel w input c = .ofRun (.ok shown)) :
    (commandLine fuel w env input arguments).Tells shown := by
  have run : commandLine fuel w env input arguments =
      { Outcome.ofRun (.ok shown) with warnings := (loadSettings w env i.sources).1 } := by
    simp only [commandLine, asked, Invocation.run]
    rw [loads, ← performed]
  rw [run]
  exact Outcome.tells_ofRun _ shown

/-- Under the settings of the environment a text as an argument is run, unless it is two dashes and
stands for no text. -/
theorem tells_of_code {env : Environment} {source : String}
    (loads : (loadSettings w env ({} : Invocation).sources).2 = .ok c)
    (ran : runProgram fuel (Program.ofText (attachedValue source.toList)) input false c =
      .ok shown) :
    (commandLine fuel w env input ["--code=" ++ source]).Tells shown :=
  tells_of_perform (ofArguments_code source) loads (congrArg Outcome.ofRun ran)

/-- The outcome of a text is that of the text as an argument, but for two dashes whose steps are
traced. -/
theorem tells_code_iff {env : Environment} {source : String} (valid : c.check = .ok ())
    (loads : (loadSettings w env ({} : Invocation).sources).2 = .ok c)
    (ran : runProgram fuel (Program.ofText source) input false c = .ok shown) :
    (commandLine fuel w env input ["--code=" ++ source]).Tells shown ↔
      ¬ (source = "--" ∧ c.debug = true) := by
  by_cases dashes : source = "--"
  · subst dashes
    obtain ⟨tape, makes⟩ := Machine.exists_tape_of_check valid
    rw [runProgram_of_makes makes] at ran
    obtain ⟨output, failure, trace, started⟩ := Machine.shown_of_dashes ran
    obtain ⟨k, rfl⟩ := Nat.exists_eq_succ_of_ne_zero (Nat.ne_of_gt started)
    -- the argument stands for the program with no steps
    have empty : runProgram (k + 1) (Program.ofText "") input false c =
        .ok ⟨⟨0, 0, none⟩, [], []⟩ := by
      rw [runProgram_of_makes makes]
      rfl
    have told : (commandLine (k + 1) w env input ["--code=" ++ "--"]).Tells
        ⟨⟨0, 0, none⟩, [], []⟩ :=
      tells_of_code loads empty
    constructor
    · rintro tells ⟨_, traced⟩
      have untraced := trace.mp (tells.trace_eq.symm.trans told.trace_eq)
      rw [traced] at untraced
      cases untraced
    · intro other
      have untraced : c.debug = false := by simpa using other
      exact told.congr output.symm (trace.mpr untraced).symm failure.symm
  · refine iff_of_true (tells_of_code loads ?_) fun both => dashes both.1
    have value : attachedValue source.toList = source := by
      rw [attachedValue, if_neg, String.ofList_toList]
      intro same
      exact dashes (String.toList_inj.mp same)
    rw [value, ran]

end CommandLine

/-! ## What the shell tells -/

namespace Shell

/-- A new shell takes a line that loads a program, and runs it when some bytes are left to be read.
It tells the outcome of the run. -/
def Plays (fuel : Nat) (w : Workplace) (c : Settings) (line : LooseText) (unread : List UInt8)
    (shown : RunOutcome) : Prop :=
  ∀ input, ∃ m loaded ran, Machine.ofSettings? c input = .ok m ∧
    (start c m).handle fuel w line = .ok loaded ∧ loaded.keep = true ∧
    let behind := { loaded.shell with
      machine := { loaded.shell.machine with input := .bytes unread } }
    behind.handle fuel w "run" = .ok ran ∧ ran.keep = true ∧
    ran.writes = .program shown.output :: (failureLines shown.report.failure).map say ∧
    ran.shell.machine.trace.toList = shown.trace

theorem plays_of_install {line source : LooseText} (valid : c.check = .ok ())
    (ran : runProgram fuel (Program.ofLoose source) input false c = .ok shown)
    (loaded : source ≠ "")
    (installs : ∀ m, ∃ fromWhere,
      (start c m).handle fuel w line = .ok ((start c m).install source fromWhere)) :
    Plays fuel w c line input shown := by
  intro first
  obtain ⟨tape, makes⟩ := Machine.exists_tape_of_check valid
  obtain ⟨fromWhere, answered⟩ := installs (.onTape tape c.debug first)
  let behind : Shell :=
    ⟨c, { (Machine.onTape tape c.debug first).load (Program.ofLoose source) with
      input := .bytes input }, source⟩
  -- behind the line the machine is a new one with the program and another input
  have same : (behind.machine.fresh.load behind.machine.program).outcome fuel = .ok shown := by
    rw [← ran, runProgram_of_makes makes]
    rfl
  have shows := runLoaded_eq (s := behind) loaded fuel
  rw [same] at shows
  obtain ⟨last, told, _, trace⟩ := shows
  have command : Command.ofLine "run" = .run := by decide +kernel
  have runs : behind.handle fuel w "run" = behind.runLoaded fuel := by
    rw [handle, command, perform_run]
  refine ⟨_, _, _, makes first, answered, rfl, runs.trans told, rfl, rfl, ?_⟩
  rw [trace]
  simp [behind, Machine.load, Machine.reset, Machine.onTape]

/-- A line that begins with a word is that word and the words behind it. -/
theorem words_of_line {line : String} {word rest : List Char}
    (typed : line.toList = word ++ ' ' :: rest)
    (visible : ∀ ch ∈ word, Text.isBlank ch = false) (nonempty : word ≠ []) :
    LooseText.words line = .ofChars word :: (Text.words Text.isBlank rest).map .ofChars := by
  rw [LooseText.ofString, LooseText.words_ofChars, typed,
    Text.words_append_blank visible nonempty (by decide), List.map_cons]

theorem ofLine_load (visible : ∀ ch ∈ path.toList, Text.isBlank ch = false) (named : path ≠ "") :
    Command.ofLine (.ofString ("load " ++ path)) = .load (some path) := by
  have line : ("load " ++ path).toList = "load".toList ++ ' ' :: path.toList := by
    rw [String.toList_append]
    rfl
  have words : LooseText.words (.ofString ("load " ++ path)) =
      [.ofString "load", .ofString path] := by
    rw [words_of_line line (Text.visible_of_all (by decide)) (by decide),
      Text.words_of_visible visible (by simpa using named)]
    rfl
  rw [Command.ofLine, words]
  simp only [Command.ofWords, LooseText.toString?_eq_some_iff.mpr rfl, List.head?_cons]

theorem ofLine_code {source : String} (visible : ∃ ch ∈ source.toList, Text.isBlank ch = false) :
    Command.ofLine (.ofString ("code " ++ source)) =
      .code (some (.ofChars ([' '].intercalate (Text.words Text.isBlank source.toList)))) := by
  have line : ("code " ++ source).toList = "code".toList ++ ' ' :: source.toList := by
    rw [String.toList_append]
    rfl
  have words : LooseText.words (.ofString ("code " ++ source)) =
      .ofString "code" :: (Text.words Text.isBlank source.toList).map .ofChars :=
    words_of_line line (Text.visible_of_all (by decide)) (by decide)
  have some := Text.words_ne_nil visible
  rw [Command.ofLine, words]
  simp only [Command.ofWords, LooseText.toString?_eq_some_iff.mpr rfl]
  rw [← LooseText.spaced_map_ofChars]
  cases split : Text.words Text.isBlank source.toList with
  | nil => contradiction
  | cons word rest => rfl

theorem plays_file {text : String} (valid : c.check = .ok ())
    (taken : readProgramFile w path c.maxFileSize = .ok text) (filled : text ≠ "")
    (visible : ∀ ch ∈ path.toList, Text.isBlank ch = false) (named : path ≠ "")
    (plain : ¬ ['.', '.'] <:+: path.toList)
    (ran : runProgram fuel (Program.ofText text) input false c = .ok shown) :
    Plays fuel w c (.ofString ("load " ++ path)) input shown := by
  have undotted : ¬ [.char '.', .char '.'] <:+: (LooseText.ofString path).points := by
    intro dots
    obtain ⟨pair, inside, same⟩ := List.infix_map_iff.mp dots
    obtain rfl : ['.', '.'] = pair := LooseText.ofChars_inj.mp (congrArg LooseText.mk same)
    exact plain inside
  refine plays_of_install valid (by rwa [Program.ofLoose_ofString]) (by simpa using filled)
    fun m => ⟨" from " ++ path, ?_⟩
  rw [handle, ofLine_load visible named, perform_load_of_read undotted taken]

theorem plays_code {source : String} (valid : c.check = .ok ())
    (visible : ∃ ch ∈ source.toList, Text.isBlank ch = false)
    (fits : ([' '].intercalate (Text.words Text.isBlank source.toList)).length ≤ c.maxCodeLength)
    (ran : runProgram fuel (Program.ofText source) input false c = .ok shown) :
    Plays fuel w c (.ofString ("code " ++ source)) input shown := by
  have filled := Text.intercalate_words_ne_nil ' ' visible
  -- the words put together again are the same program
  have joined : runProgram fuel
      (Program.ofLoose (.ofChars ([' '].intercalate (Text.words Text.isBlank source.toList)))) input
        false c = .ok shown := by
    rw [Program.ofLoose_ofChars, Program.ofChars_intercalate_words]
    exact ran
  have loaded :
      LooseText.ofChars ([' '].intercalate (Text.words Text.isBlank source.toList)) ≠ "" :=
    fun empty => filled (LooseText.ofChars_inj.mp empty)
  refine plays_of_install valid joined loaded fun m => ⟨"", ?_⟩
  have short : ¬ c.maxCodeLength <
      (LooseText.ofChars ([' '].intercalate (Text.words Text.isBlank source.toList))).length := by
    rw [LooseText.length, LooseText.ofChars, List.length_map]
    exact Int.not_lt.mpr fits
  rw [handle, ofLine_code visible]
  exact congrArg Except.ok (if_neg short)

end Shell

/-! ## All front ends -/

/-- A new machine under valid settings, a program file, an argument and a line of the shell: whoever
gets a source runs the same program on the same input, and tells the same outcome of it.  That holds
of every file that is not empty, not too large and at a path that is a word, does not look like a
flag and has no two dots in a row, and of every text that is not blank and not too long.  The one
exception is a text of two dashes as an argument while steps are traced. -/
theorem front_ends_agree (valid : c.check = .ok ()) :
    (∀ path bytes, w.read path = .ok bytes → bytes ≠ [] → bytes.length ≤ c.maxFileSize →
      (∀ ch ∈ path.toList, Text.isBlank ch = false) → '\x00' ∉ path.toList →
      ¬ ['.', '.'] <:+: path.toList → path.toList.head? ≠ some '-' →
      runProgram fuel (Program.ofBytes bytes) input false c = .ok shown →
      runFile fuel w path input c = .ok shown ∧
      (∀ env, (loadSettings w env ({} : CommandLine.Invocation).sources).2 = .ok c →
        (commandLine fuel w env input [path]).Tells shown) ∧
      Shell.Plays fuel w c (.ofString ("load " ++ path)) input shown) ∧
    ∀ source : String, (∃ ch ∈ source.toList, Text.isBlank ch = false) →
      ([' '].intercalate (Text.words Text.isBlank source.toList)).length ≤ c.maxCodeLength →
      runProgram fuel (Program.ofText source) input false c = .ok shown →
      (∀ env, (loadSettings w env ({} : CommandLine.Invocation).sources).2 = .ok c →
        ((commandLine fuel w env input ["--code=" ++ source]).Tells shown ↔
          ¬ (source = "--" ∧ c.debug = true))) ∧
      Shell.Plays fuel w c (.ofString ("code " ++ source)) input shown := by
  refine ⟨fun path bytes read filled fits visible clean plain file ran => ?_,
    fun source visible fits ran =>
      ⟨fun _ loads => CommandLine.tells_code_iff valid loads ran,
        Shell.plays_code valid visible fits ran⟩⟩
  have taken := readProgramFile_of_read read clean fits
  -- the characters of the text that is read are the bytes
  have same : Program.ofText (String.ofList (bytes.map Program.byteChar)) =
      Program.ofBytes bytes := by
    rw [Program.ofText, String.toList_ofList, Program.ofBytes]
  have runs : runFile fuel w path input c = .ok shown := by
    rw [runFile, taken, ← ran, ← same]
  have named : path ≠ "" := by
    rintro rfl
    cases read
  refine ⟨runs, fun env loads => ?_, ?_⟩
  · exact CommandLine.tells_of_perform (CommandLine.ofArguments_file file) loads
      (congrArg CommandLine.Outcome.ofRun runs)
  · exact Shell.plays_file valid taken (by simpa using filled) visible named plain (same ▸ ran)

/-- A run that the cap of the tape ends, of a file and of a text with blanks in it. -/
theorem front_ends_agree_memoryLimit :
    ∃ (w : Workplace) (env : Environment) (c : Settings) (shown : RunOutcome),
      w.read "p" = .ok [43, 46, 62, 44, 46, 62] ∧ c.maxCells = 2 ∧
      shown = ⟨⟨5, 2, some (.fault (.memoryLimit 2) 5)⟩, [1, 7], []⟩ ∧
      runFile 9 w "p" [7, 8] c = .ok shown ∧
      (commandLine 9 w env [7, 8] ["p"]).Tells shown ∧
      Shell.Plays 9 w c "load p" [7, 8] shown ∧
      (commandLine 9 w env [7, 8] ["--code= +. >,\n.>"]).Tells shown ∧
      Shell.Plays 9 w c "code  +. >,\n.>" [7, 8] shown := by
  let w : Workplace := .ofEntries [(["p"], .file [43, 46, 62, 44, 46, 62])]
  let env : Environment :=
    [("TRBBFI_INITIAL_CELLS", .ofString "1"), ("TRBBFI_MAX_CELLS", .ofString "2")]
  let c : Settings := { initialCells := 1, maxCells := 2 }
  have name : "p".splitOn "/" = ["p"] := by
    rw [String.splitOn, if_neg (by decide), String.splitOnAux, if_neg (by decide),
      if_neg (by decide), String.splitOnAux, if_pos (by decide)]
    decide
  have read : w.read "p" = .ok [43, 46, 62, 44, 46, 62] := by
    refine eq_ok_of_toOption ?_
    rw [Workplace.read, Workplace.locate, name]
    decide +kernel
  have loads : (loadSettings w env ({} : CommandLine.Invocation).sources).2 = .ok c :=
    eq_ok_of_toOption (by decide +kernel)
  have ran : runProgram 9 (Program.ofText " +. >,\n.>") [7, 8] false c =
      .ok ⟨⟨5, 2, some (.fault (.memoryLimit 2) 5)⟩, [1, 7], []⟩ :=
    eq_ok_of_toOption (by decide +kernel)
  have same : Program.ofBytes [43, 46, 62, 44, 46, 62] = Program.ofText " +. >,\n.>" := by
    decide +kernel
  obtain ⟨files, texts⟩ := @front_ends_agree 9 w [7, 8] c
    ⟨⟨5, 2, some (.fault (.memoryLimit 2) 5)⟩, [1, 7], []⟩ rfl
  obtain ⟨runs, tells, plays⟩ := files "p" _ read (by decide) (by decide)
    (Text.visible_of_all (by decide)) (by decide) (by decide) (by decide) (same ▸ ran)
  obtain ⟨tells', plays'⟩ :=
    texts " +. >,\n.>" ⟨'+', by decide, by decide⟩ (by decide) ran
  exact ⟨w, env, c, _, read, rfl, rfl, runs, tells env loads, plays,
    (tells' env loads).mpr (by decide), plays'⟩

/-- Two dashes as an argument are not run while steps are traced. -/
theorem two_dashes_untold :
    ∃ (w : Workplace) (env : Environment) (c : Settings) (shown : RunOutcome),
      c.check = .ok () ∧ (loadSettings w env ({} : CommandLine.Invocation).sources).2 = .ok c ∧
      runProgram 5 (Program.ofText "--") [] false c = .ok shown ∧
      shown.trace = [⟨0, .decrement, 0, 0⟩, ⟨1, .decrement, 0, 255⟩] ∧
      (commandLine 5 w env [] ["--code=--"]).trace = [] ∧
      ¬ (commandLine 5 w env [] ["--code=--"]).Tells shown := by
  have silent : (commandLine 5 (.ofEntries []) [("TRBBFI_DEBUG", .ofString "1")] []
      ["--code=--"]).trace = [] := by
    decide +kernel
  refine ⟨.ofEntries [], [("TRBBFI_DEBUG", .ofString "1")], { debug := true },
    ⟨⟨2, 0, none⟩, [], [⟨0, .decrement, 0, 0⟩, ⟨1, .decrement, 0, 255⟩]⟩, rfl,
    eq_ok_of_toOption (by decide +kernel), eq_ok_of_toOption (by decide +kernel), rfl, silent,
    fun tells => ?_⟩
  have traced := tells.trace_eq
  rw [silent] at traced
  cases traced

end Brainfuck
