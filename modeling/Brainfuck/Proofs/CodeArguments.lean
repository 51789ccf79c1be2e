import Brainfuck.Proofs.FrontEnds
import Brainfuck.Proofs.Variables

/-! # Programs as the value of a flag

Which texts are run when they are typed behind `-c` as an argument of their own.

* `LikeFlag` — the texts that look like a flag, and so are taken for one;
* `StandsAsValue` — the texts that can be the value of the flag in front of them;
* `codeArguments` — the arguments that ask for a text to be run;
* `tells_codeArguments_iff` — a text is run if it stands as a value, and only then.

An argument is sorted by itself, without a look at the flag in front of it.  That a dash is a
command of the language does not count: the flag takes the next argument if that is plain, and what
looks like a flag is not (`noValue_ofText`), nor is most of what has a dash in front
(`ofText_of_dash`).
-/

namespace Brainfuck

theorem runProgram_tracing (fuel : Nat) (p : Program) (input : List UInt8) (tracing : Bool)
    (s : Settings) :
    runProgram fuel p input tracing s =
      runProgram fuel p input false { s with debug := tracing || s.debug } := by
  unfold runProgram Machine.ofSettings? Machine.new?
  cases Tape.new? s.initialCells s.maxCells <;> rfl

namespace CommandLine

variable {fuel : Nat} {w : Workplace} {env : Environment} {input : List UInt8} {source : String}
  {shown : RunOutcome} {cs : List Char}

/-! ## What looks like a flag -/

/-- A text begins like a name: like a letter with the whole of it, and like a word with a part of it
that goes as far as the first equals sign. -/
def FlagName.Begins (cs : List Char) : FlagName → Prop
  | letter c => ['-', c] <+: cs
  | word w => ['-', '-'] <+: cs ∧ cs.takeWhile (· ≠ '=') <+: (word w).text.toList

instance (cs : List Char) : (name : FlagName) → Decidable (name.Begins cs)
  | .letter c => inferInstanceAs (Decidable (['-', c] <+: cs))
  | .word w => inferInstanceAs
      (Decidable (['-', '-'] <+: cs ∧ cs.takeWhile (· ≠ '=') <+: (FlagName.word w).text.toList))

/-- A text begins like a name of a flag.  Two dashes begin every word. -/
def LikeFlag (cs : List Char) : Prop :=
  ∃ entry ∈ Flag.directory, entry.1.Begins cs

instance (cs : List Char) : Decidable (LikeFlag cs) :=
  inferInstanceAs (Decidable (∃ entry ∈ Flag.directory, entry.1.Begins cs))

/-- A text can be the value of the flag in front of it. -/
inductive StandsAsValue (cs : List Char) : Prop
  | undashed (plain : cs.head? ≠ some '-')
  | dash (alone : cs = ['-'])
  /-- What is no flag is still unknown, unless it is a number or has a space in it. -/
  | dashed (other : ¬ LikeFlag cs) (plain : isNegativeNumber cs = true ∨ ' ' ∈ cs)

theorem LikeFlag.head?_eq (h : LikeFlag cs) : cs.head? = some '-' := by
  obtain ⟨⟨name, f⟩, _, begins⟩ := h
  cases name with
  | letter c =>
    obtain ⟨rest, rfl⟩ := begins
    rfl
  | word word =>
    obtain ⟨⟨rest, rfl⟩, _⟩ := begins
    rfl

theorem fst_splitAtEquals (cs : List Char) : (splitAtEquals cs).1 = cs.takeWhile (· ≠ '=') := by
  rw [splitAtEquals]
  split
  · rename_i none
    have whole := List.takeWhile_append_dropWhile (p := (· ≠ '=')) (l := cs)
    rwa [none, List.append_nil, eq_comm] at whole
  · rfl

theorem ofName?_takeWhile (other : ¬ LikeFlag cs) :
    Flag.ofName? (String.ofList (cs.takeWhile (· ≠ '='))) = none := by
  refine Option.eq_none_iff_forall_ne_some.mpr fun ⟨name, f⟩ found => other ?_
  have named : name.text = String.ofList (cs.takeWhile (· ≠ '=')) := by
    simpa using List.find?_some found
  have start : name.text.toList = cs.takeWhile (· ≠ '=') := by
    rw [named, String.toList_ofList]
  have front : name.text.toList <+: cs := start ▸ List.takeWhile_prefix _
  refine ⟨(name, f), List.mem_of_find?_eq_some found, ?_⟩
  cases name with
  | letter c =>
    rwa [FlagName.text, String.toList_ofList] at front
  | word word =>
    refine ⟨List.IsPrefix.trans ?_ front, start ▸ List.prefix_refl _⟩
    rw [FlagName.text, String.toList_append]
    exact List.prefix_append _ _

theorem ofName?_of_not_likeFlag (other : ¬ LikeFlag source.toList) :
    Flag.ofName? source = none := by
  by_cases value : '=' ∈ source.toList
  · exact ofName?_eq_none value
  · have whole : source.toList.takeWhile (· ≠ '=') = source.toList := by
      refine List.takeWhile_eq_self_iff.mpr fun c member => ?_
      simpa using fun same : c = '=' => value (same ▸ member)
    have none := ofName?_takeWhile other
    rwa [whole, String.ofList_toList] at none

theorem mem_completions_iff {start : List Char} {entry : FlagName × Flag} :
    entry ∈ Flag.completions (String.ofList start) ↔
      entry ∈ Flag.directory ∧ start <+: entry.1.text.toList := by
  rw [Flag.completions, List.mem_filter, String.toList_ofList, List.isPrefixOf_iff_prefix]

/-- No name is found twice, and two dashes are no letter behind a dash. -/
theorem lookup_of_mem_directory :
    ∀ entry ∈ Flag.directory,
      entry.1 ≠ .letter '-' ∧ List.lookup entry.1 Flag.directory = some entry.2 := by
  decide

namespace Argument

/-- A text as an argument is no value for the flag in front of it: it is not plain, or the start of
several flags. -/
inductive NoValue (source : String) : Except UsageError Argument → Prop
  | other {a : Argument} (other : ∀ text, a ≠ .plain text) : NoValue source (.ok a)
  | ambiguous (names : List FlagName) : NoValue source (.error (.ambiguous source names))

theorem noValue_called (name : FlagName) (f : Flag) (attached : Option (List Char)) :
    NoValue source (.ok (called name f attached)) := by
  cases name <;> exact .other fun text same => by cases same

/-- What a text with a dash is that is no flag. -/
def unflagged (source : String) : Argument :=
  if isNegativeNumber source.toList = true ∨ ' ' ∈ source.toList then .plain source
  else .unknown source

theorem pure_unflagged (source : String) :
    (if isNegativeNumber source.toList || source.toList.contains ' ' then pure (.plain source)
      else pure (.unknown source) : Except UsageError Argument) = .ok (unflagged source) := by
  simp only [unflagged, Bool.or_eq_true, List.contains_iff_mem]
  split <;> rfl

theorem ofDashes_eq (source : String) :
    ofDashes source =
      (if ['-', '-'] <+: source.toList then ofWord source else .ok (ofLetters source.toList)).map
        (Option.getD · (unflagged source)) := by
  unfold ofDashes
  dsimp only
  split
  · rename_i rest chars
    have begins : ['-', '-'] <+: source.toList := ⟨rest, chars.symm⟩
    rw [if_pos begins]
    cases ofWord source with
    | error e => rfl
    | ok found =>
      cases found with
      | none => exact pure_unflagged source
      | some argument => rfl
  · rename_i other
    have lacks : ¬ ['-', '-'] <+: source.toList := fun ⟨rest, chars⟩ => other rest chars.symm
    rw [if_neg lacks]
    cases ofLetters source.toList with
    | none => exact pure_unflagged source
    | some argument => rfl

theorem noValue_ofDashes (flag : LikeFlag source.toList) : NoValue source (ofDashes source) := by
  rw [ofDashes_eq]
  obtain ⟨⟨name, f⟩, member, begins⟩ := flag
  obtain ⟨single, known⟩ := lookup_of_mem_directory _ member
  cases name with
  | letter c =>
    obtain ⟨rest, chars⟩ := begins
    have lacks : ¬ ['-', '-'] <+: source.toList := by
      rintro ⟨others, chars'⟩
      rw [← chars] at chars'
      cases chars'
      exact single rfl
    have found : ofLetters source.toList = some (.flag f true (some rest)) := by
      rw [← chars]
      exact congrArg (Option.map _) known
    rw [if_neg lacks, found]
    exact .other fun text same => by cases same
  | word word =>
    obtain ⟨dashes, part⟩ := begins
    rw [← fst_splitAtEquals] at part
    have among := mem_completions_iff.mpr ⟨member, part⟩
    rw [if_pos dashes, ofWord]
    dsimp only
    split
    · rename_i none
      rw [none] at among
      cases among
    · exact noValue_called ..
    · exact .ambiguous _

theorem ofDashes_of_not_likeFlag (other : ¬ LikeFlag source.toList) :
    ofDashes source = .ok (unflagged source) := by
  rw [ofDashes_eq]
  split_ifs with dashes
  · have none : Flag.completions (String.ofList (splitAtEquals source.toList).1) = [] := by
      refine List.eq_nil_iff_forall_not_mem.mpr fun ⟨name, f⟩ among => other ?_
      obtain ⟨member, part⟩ := mem_completions_iff.mp among
      rw [fst_splitAtEquals] at part
      refine ⟨(name, f), member, ?_⟩
      cases name with
      | letter c =>
        -- what goes on behind two dashes does not begin a letter behind one
        have longer : ['-', '-'] <+: source.toList.takeWhile (· ≠ '=') := by
          obtain ⟨rest, chars⟩ := dashes
          simp [← chars]
        rw [FlagName.text, String.toList_ofList] at part
        have same : '-' = c := by simpa using longer.trans part
        exact absurd (same ▸ rfl) (lookup_of_mem_directory _ member).1
      | word word => exact ⟨dashes, part⟩
    rw [ofWord]
    dsimp only
    rw [none]
    rfl
  · have none : ofLetters source.toList = none := by
      unfold ofLetters
      split
      · rename_i letter rest chars
        refine Option.map_eq_none_iff.mpr (Option.eq_none_iff_forall_ne_some.mpr fun f known => ?_)
        obtain ⟨before, behind, parts, _⟩ := List.lookup_eq_some_iff.mp known
        refine other ⟨(.letter letter, f), parts ▸ List.mem_append_right _ List.mem_cons_self, ?_⟩
        exact ⟨rest, chars.symm⟩
      · rfl
    rw [none]
    rfl

theorem noValue_ofText (flag : LikeFlag source.toList) : NoValue source (ofText source) := by
  unfold ofText
  split
  · rename_i chars
    rw [chars] at flag
    exact absurd flag (by decide)
  · rename_i chars
    rw [chars] at flag
    exact absurd flag (by decide)
  · split
    · exact noValue_called ..
    · split
      · split
        · exact noValue_called ..
        · exact noValue_ofDashes flag
      · exact noValue_ofDashes flag
  · rename_i plain
    obtain ⟨rest, chars⟩ := List.head?_eq_some_iff.mp flag.head?_eq
    exact absurd chars (plain rest)

theorem ofText_of_dash (dashed : source.toList.head? = some '-') (long : source.toList ≠ ['-'])
    (other : ¬ LikeFlag source.toList) : ofText source = .ok (unflagged source) := by
  have last : ofDashes source = .ok (unflagged source) := ofDashes_of_not_likeFlag other
  unfold ofText
  split
  · rename_i chars
    rw [chars] at dashed
    cases dashed
  · contradiction
  · rw [ofName?_of_not_likeFlag other]
    dsimp only
    split
    · rename_i start value parts
      have start_eq : start = source.toList.takeWhile (· ≠ '=') := by
        rw [← fst_splitAtEquals, parts]
      rw [start_eq, ofName?_takeWhile other]
      exact last
    · exact last
  · rename_i plain
    obtain ⟨rest, chars⟩ := List.head?_eq_some_iff.mp dashed
    exact absurd chars (plain rest)

/-- What an argument is with none behind it. -/
def ofLast (source : String) : Except UsageError Argument :=
  if source = "--" then .ok .separator else ofText source

theorem ofTexts_singleton (source : String) :
    ofTexts [source] = (ofLast source).map ([·]) := by
  rw [ofTexts, ofLast]
  split_ifs
  · rfl
  · cases ofText source <;> rfl

/-- A text is plain if it stands as a value. -/
theorem ofLast_of_standsAsValue (stands : StandsAsValue source.toList) :
    ofLast source = .ok (.plain source) := by
  have other : source ≠ "--" := by
    rintro rfl
    cases stands with
    | undashed plain => exact plain (by decide)
    | dash alone => cases alone
    | dashed other _ => exact other (by decide)
  rw [ofLast, if_neg other]
  by_cases dashed : source.toList.head? = some '-'
  · by_cases alone : source.toList = ['-']
    · unfold ofText
      rw [alone]
      rfl
    · cases stands with
      | undashed plain => contradiction
      | dash alone => contradiction
      | dashed other plain => rw [ofText_of_dash dashed alone other, unflagged, if_pos plain]
  · exact ofText_of_no_dash dashed

/-- A text is no value if it does not stand as one. -/
theorem noValue_ofLast (falls : ¬ StandsAsValue source.toList) :
    NoValue source (ofLast source) := by
  rw [ofLast]
  split_ifs
  · exact .other fun text same => by cases same
  · by_cases flag : LikeFlag source.toList
    · exact noValue_ofText flag
    · have dashed : source.toList.head? = some '-' := by
        by_contra plain
        exact falls (.undashed plain)
      rw [ofText_of_dash dashed (fun alone => falls (.dash alone)) flag, unflagged,
        if_neg fun plain => falls (.dashed flag plain)]
      exact .other fun text same => by cases same

end Argument

/-! ## Asking for a text to be run -/

/-- The arguments that ask for a text to be run, with or without a trace. -/
def codeArguments (source : String) : (debug : Bool) → List String
  | false => ["-c", source]
  | true => ["-d", "-c", source]

/-- What is asked for hangs on the last argument alone. -/
theorem ofArguments_codeArguments (source : String) (debug : Bool) :
    Request.ofArguments (codeArguments source debug) =
      match Argument.ofLast source with
      | .error e => .error e
      | .ok (.plain value) => .ok (.run { code := some value, debug := debug })
      | .ok _ => .error (.missingValue .code) := by
  have code : Argument.ofText "-c" = .ok (.flag .code true none) := by decide
  have trace : Argument.ofText "-d" = .ok (.flag .debug true none) := by decide
  have sorted : Argument.ofTexts (codeArguments source debug) =
      (Argument.ofLast source).map fun last =>
        (if debug then [.flag .debug true none] else []) ++ [.flag .code true none, last] := by
    cases debug with
    | false =>
      rw [codeArguments, Argument.ofTexts, if_neg (by decide), code, Argument.ofTexts_singleton]
      cases Argument.ofLast source <;> rfl
    | true =>
      rw [codeArguments, Argument.ofTexts, if_neg (by decide), trace, Argument.ofTexts,
        if_neg (by decide), code, Argument.ofTexts_singleton]
      cases Argument.ofLast source <;> rfl
  rw [Request.ofArguments, sorted]
  cases Argument.ofLast source with
  | error e => rfl
  | ok last => cases debug <;> cases last <;> rfl

/-- A text that does not stand as a value leaves the flag without one, or is not clear itself. -/
theorem commandLine_of_not_standsAsValue (falls : ¬ StandsAsValue source.toList) :
    ∃ e, (e = .missingValue .code ∨ ∃ names, e = .ambiguous source names) ∧
      ∀ debug fuel w env input, commandLine fuel w env input (codeArguments source debug) =
        .ended (.complaint (.usage e)) := by
  have none := Argument.noValue_ofLast falls
  cases sorted : Argument.ofLast source with
  | error e =>
    rw [sorted] at none
    cases none with
    | ambiguous names =>
      refine ⟨_, .inr ⟨names, rfl⟩, fun debug fuel w env input => ?_⟩
      rw [commandLine, ofArguments_codeArguments, sorted]
  | ok last =>
    rw [sorted] at none
    cases none with
    | other other =>
      refine ⟨_, .inl rfl, fun debug fuel w env input => ?_⟩
      rw [commandLine, ofArguments_codeArguments, sorted]
      cases last with
      | plain text => exact absurd rfl (other text)
      | _ => rfl

/-- Without a settings file, a variable file and variables the settings are the defaults. -/
theorem loadSettings_bare (bare : DotEnv.text? w = .ok none)
    (unset : ∀ f : Field, env.get? f.variableName = none) {i : Invocation}
    (fileless : i.config = none) :
    loadSettings w env i.sources = ([], .ok { debug := i.debug }) := by
  have taken : DotEnv.load w env = ([], .ok env) := by
    rw [DotEnv.load, bare]
    split_ifs <;> rfl
  have renders : Environment.Renders env {} (fun _ => false) := fun f => unset f
  have layer : env.layer = .ok [] := renders.layer_eq
  have layers : i.sources.layers w env =
      .ok [] :: if i.debug then [.ok [.debug true]] else [] := by
    simp only [SettingsSources.layers, Invocation.sources, fileless, Option.getD_none, layer]
    cases i.debug <;> rfl
  have asks : i.sources.variableFile = true := rfl
  rw [loadSettings, if_pos asks, taken]
  dsimp only
  rw [layers]
  cases i.debug <;> rfl

theorem commandLine_codeArguments (bare : DotEnv.text? w = .ok none)
    (unset : ∀ f : Field, env.get? f.variableName = none) {debug : Bool}
    (stands : StandsAsValue source.toList)
    (ran : runProgram fuel (Program.ofText source) input debug {} = .ok shown) :
    commandLine fuel w env input (codeArguments source debug) = .ofRun (.ok shown) := by
  have asked : Request.ofArguments (codeArguments source debug) =
      .ok (.run { code := some source, debug := debug }) := by
    rw [ofArguments_codeArguments, Argument.ofLast_of_standsAsValue stands]
  have loads : loadSettings w env (Invocation.sources { code := some source, debug := debug }) =
      ([], .ok { debug := debug }) :=
    loadSettings_bare bare unset rfl
  rw [runProgram_tracing, Bool.or_false] at ran
  rw [commandLine, asked]
  show Invocation.run fuel w env input _ = _
  rw [Invocation.run, loads]
  show { Outcome.ofRun (runProgram fuel (Program.ofText source) input false { debug := debug })
    with warnings := [] } = Outcome.ofRun (.ok shown)
  rw [ran]
  rfl

/-- Where there is no variable file and no variable for a field, a text behind `-c` is run under the
defaults, with a trace behind `-d`, and what is told is the outcome of the run.  That holds of every
text that stands as a value.  Any other text is not run: the program ends with a word on its usage,
whatever the input and the settings are. -/
theorem tells_codeArguments_iff (bare : DotEnv.text? w = .ok none)
    (unset : ∀ f : Field, env.get? f.variableName = none) (source : String) :
    (∀ debug fuel input shown,
      runProgram fuel (Program.ofText source) input debug {} = .ok shown →
      (commandLine fuel w env input (codeArguments source debug)).warnings = [] ∧
      ((commandLine fuel w env input (codeArguments source debug)).Tells shown ↔
        StandsAsValue source.toList)) ∧
    (¬ StandsAsValue source.toList →
      ∃ e, (e = .missingValue .code ∨ ∃ names, e = .ambiguous source names) ∧
        ∀ debug fuel w env input, commandLine fuel w env input (codeArguments source debug) =
          .ended (.complaint (.usage e))) := by
  refine ⟨fun debug fuel input shown ran => ?_, commandLine_of_not_standsAsValue⟩
  by_cases stands : StandsAsValue source.toList
  · rw [commandLine_codeArguments bare unset stands ran]
    exact ⟨rfl, iff_of_true (Outcome.tells_ofRun [] shown) stands⟩
  · obtain ⟨e, _, ends⟩ := commandLine_of_not_standsAsValue stands
    rw [ends]
    refine ⟨rfl, iff_of_false (fun tells => ?_) stands⟩
    -- a word on the usage comes with a status of its own
    have status : some 2 = some (if shown.report.failure = none then 0 else 1) := tells.status_eq
    split at status <;> cases status

/-- A text with a dash in front and a space in it is run, here with a trace. -/
theorem tells_codeArguments_iff_space :
    ∃ (w : Workplace) (env : Environment) (shown : RunOutcome),
      DotEnv.text? w = .ok none ∧ (∀ f : Field, env.get? f.variableName = none) ∧
      shown = ⟨⟨2, 1, none⟩, [255], [⟨0, .decrement, 0, 0⟩, ⟨1, .output, 0, 255⟩]⟩ ∧
      (commandLine 4 w env [] ["-d", "-c", "-. print"]).Tells shown := by
  have stands : StandsAsValue "-. print".toList := .dashed (by decide) (by decide)
  have bare : DotEnv.text? (.ofEntries []) = .ok none := rfl
  have unset : ∀ f : Field, Environment.get? [] f.variableName = none := fun _ => rfl
  obtain ⟨tells, _⟩ := tells_codeArguments_iff bare unset "-. print"
  have ran : runProgram 4 (Program.ofText "-. print") [] true {} =
      .ok ⟨⟨2, 1, none⟩, [255], [⟨0, .decrement, 0, 0⟩, ⟨1, .output, 0, 255⟩]⟩ :=
    eq_ok_of_toOption (by decide +kernel)
  exact ⟨_, _, _, bare, unset, rfl, (tells true 4 [] _ ran).2.mpr stands⟩

/-- A text with a dash in front is not run, though a run of it ends well. -/
theorem dashed_code_refused :
    ∃ (w : Workplace) (env : Environment) (shown : RunOutcome),
      DotEnv.text? w = .ok none ∧ (∀ f : Field, env.get? f.variableName = none) ∧
      runProgram 4 (Program.ofText "-.") [] false {} = .ok shown ∧
      shown = ⟨⟨2, 1, none⟩, [255], []⟩ ∧
      (commandLine 4 w env [] ["-c", "-."]).output = [] ∧
      (commandLine 4 w env [] ["-c", "-."]).ending.status? = some 2 ∧
      ¬ (commandLine 4 w env [] ["-c", "-."]).Tells shown := by
  have silent : (commandLine 4 (.ofEntries []) [] [] ["-c", "-."]).output = [] := by
    decide +kernel
  refine ⟨.ofEntries [], [], ⟨⟨2, 1, none⟩, [255], []⟩, rfl, fun _ => rfl,
    eq_ok_of_toOption (by decide +kernel), rfl, silent, by decide +kernel, fun tells => ?_⟩
  have told := tells.output_eq
  rw [silent] at told
  cases told

end CommandLine

end Brainfuck
