import Brainfuck.Proofs.Entries
import Brainfuck.Proofs.FrontEnds

/-! # Settings from layers

What settings are loaded as, field by field, and which error is told when they cannot be.

* `Settings.Over` — settings with layers over the defaults;
* `Violation.Found`, `Settings.conditions` — the conditions on settings, one by one;
* `Environment.value?`, `SettingsFile.value?` — what the environment and the file give a field;
* `DotEnv.get?_load` — the environment behind a variable file;
* `layered_eq` — the layers of all sources behind one list of checks;
* `loadSettings_of_layers` — the outcome of loading.

Each layer comes with its own checks, and behind it the conditions on everything so far are checked.
Put one after the other they are a single list of checks (`guarded_bind`), and the first failure in
it is the error that is told.
-/

namespace Brainfuck

namespace Settings

variable {s t : Settings} {f : Field}

/-! ## Fields -/

theorem get_assign (s : Settings) (a : Assignment) (f : Field) :
    (s.assign a).get f = if a.field = f then a else s.get f := by
  cases a <;> cases f <;> rfl

/-- The last assignment of a layer to a field. -/
def lastOf (layer : List Assignment) (f : Field) : Option Assignment :=
  layer.reverse.find? fun a => a.field = f

theorem get_foldl_assign (s : Settings) (layer : List Assignment) (f : Field) :
    (layer.foldl assign s).get f = (lastOf layer f).getD (s.get f) := by
  induction layer generalizing s with
  | nil => rfl
  | cons a layer ih =>
    rw [List.foldl_cons, ih, get_assign, lastOf, lastOf, List.reverse_cons, List.find?_append]
    cases layer.reverse.find? fun a => a.field = f with
    | some last => rfl
    | none => by_cases same : a.field = f <;> simp [same]

theorem ext_get (h : ∀ f, s.get f = t.get f) : s = t := by
  have initialCells := h .initialCells
  have maxCells := h .maxCells
  have debug := h .debug
  have maxFileSize := h .maxFileSize
  have maxCodeLength := h .maxCodeLength
  have dumpCount := h .dumpCount
  have prompt := h .prompt
  cases s
  cases t
  simp_all [get]

/-- A layer that gives fields their values, each at most one, in any order. -/
theorem lastOf_filterMap {value? : Field → Option Assignment}
    (own : ∀ f a, value? f = some a → a.field = f) (f : Field) :
    lastOf (Field.all.filterMap value?) f = value? f := by
  have named : (fun g => (value? g).any fun a => decide (a.field = f)) =
      fun g => decide (g = f) && (value? f).isSome := by
    funext g
    by_cases same : g = f
    · subst same
      cases given : value? g with
      | none => simp
      | some a => simp [own g a given]
    · cases given : value? g with
      | none => simp [same]
      | some a => simp [own g a given, same]
  have found : ∀ b : Bool, Field.all.reverse.find? (fun g => decide (g = f) && b) =
      if b then some f else none := by
    cases f <;> decide
  rw [lastOf, ← List.filterMap_reverse, List.find?_filterMap, named, found]
  cases given : value? f with
  | none => rfl
  | some a => exact given

/-- The settings have the layers over the defaults; the first layer that gives a field counts. -/
def Over (s : Settings) (layers : List (Field → Option Assignment)) : Prop :=
  ∀ f, s.get f = (layers.findSome? fun layer => layer f).getD (({} : Settings).get f)

theorem Over.foldl_assign {layers : List (Field → Option Assignment)} (h : s.Over layers)
    (layer : List Assignment) : (layer.foldl assign s).Over (lastOf layer :: layers) := by
  intro f
  rw [get_foldl_assign, h f, List.findSome?_cons]
  cases lastOf layer f <;> rfl

end Settings

/-! ## Conditions -/

/-- The settings violate the condition. -/
def Violation.Found (s : Settings) : Violation → Prop
  | initialCells => s.initialCells ≤ 0
  | maxCells => s.maxCells < s.initialCells
  | maxFileSize => s.maxFileSize ≤ 0
  | maxCodeLength => s.maxCodeLength ≤ 0
  | dumpCount => s.dumpCount ≤ 0

instance (s : Settings) : (v : Violation) → Decidable (v.Found s)
  | .initialCells => inferInstanceAs (Decidable (s.initialCells ≤ 0))
  | .maxCells => inferInstanceAs (Decidable (s.maxCells < s.initialCells))
  | .maxFileSize => inferInstanceAs (Decidable (s.maxFileSize ≤ 0))
  | .maxCodeLength => inferInstanceAs (Decidable (s.maxCodeLength ≤ 0))
  | .dumpCount => inferInstanceAs (Decidable (s.dumpCount ≤ 0))

namespace Violation

/-- All conditions, in the order in which they are looked at. -/
def all : List Violation :=
  [initialCells, maxCells, maxFileSize, maxCodeLength, dumpCount]

/-- A condition as a check of settings. -/
def error? (s : Settings) (v : Violation) : Option LoadError :=
  if v.Found s then some (.settings (.violation v)) else none

end Violation

namespace Settings

variable {s : Settings}

/-- The conditions as checks of settings. -/
def conditions (s : Settings) : List (Option LoadError) :=
  Violation.all.map (Violation.error? s)

theorem check_eq (s : Settings) :
    (s.check.mapError fun v => LoadError.settings (.violation v)) = guarded s.conditions () := by
  simp only [conditions, Violation.all, List.map_cons, List.map_nil, Violation.error?,
    guarded_ite_cons]
  simp only [check, Violation.Found]
  repeat' split
  all_goals simp only [*, if_true, if_false]
  all_goals rfl

/-- A layer comes with its checks, and the conditions on the outcome follow them. -/
theorem addLayer_eq {checks : List (Option LoadError)} {assignments : List Assignment}
    {layer : Except LoadError (List Assignment)} (h : layer = guarded checks assignments)
    (s : Settings) :
    s.addLayer layer = guarded (checks ++ (assignments.foldl assign s).conditions)
      (assignments.foldl assign s) := by
  rw [addLayer, h]
  refine guarded_bind ?_
  have checked := check_eq (assignments.foldl assign s)
  rw [overlay]
  cases found : (assignments.foldl assign s).check with
  | error v =>
    rw [found] at checked
    exact (guarded_eq_error_iff.mpr (guarded_eq_error_iff.mp checked.symm)).symm
  | ok _ =>
    rw [found] at checked
    exact (guarded_eq_ok_iff.mpr ⟨(guarded_eq_ok_iff.mp checked.symm).1, rfl⟩).symm

end Settings

/-! ## The environment -/

namespace Environment

/-- The error of the variable of a field, if there is one that is no value of the field. -/
def error? (env : Environment) (f : Field) : Option LoadError :=
  (env.get? f.variableName).bind fun text =>
    (failure? (f.assignText f.variableName text)).map .settings

/-- The value of the variable of a field, if there is one. -/
def value? (env : Environment) (f : Field) : Option Assignment :=
  (env.get? f.variableName).bind fun text => (f.assignText f.variableName text).toOption

theorem field_of_value? {env : Environment} {f : Field} {a : Assignment}
    (h : env.value? f = some a) : a.field = f := by
  obtain ⟨text, -, read⟩ := Option.bind_eq_some_iff.mp h
  exact Field.field_of_assignText (eq_ok_of_toOption read)

theorem layer_eq (env : Environment) :
    env.layer.mapError LoadError.settings =
      guarded (Field.all.map env.error?) (Field.all.filterMap env.value?) := by
  have checks : (Field.all.map fun f => failure? (env.assignment? f)).map
      (Option.map LoadError.settings) = Field.all.map env.error? := by
    rw [List.map_map]
    refine List.map_congr_left fun f _ => ?_
    rw [Function.comp_apply, assignment?, error?]
    cases env.get? f.variableName with
    | none => rfl
    | some text =>
      rw [Option.bind_some]
      dsimp only
      cases f.assignText f.variableName text <;> rfl
  have values : (Field.all.filterMap fun f => (env.assignment? f).toOption).filterMap id =
      Field.all.filterMap env.value? := by
    rw [List.filterMap_filterMap]
    refine congrArg (List.filterMap · Field.all) (funext fun f => ?_)
    rw [assignment?, value?]
    cases env.get? f.variableName with
    | none => rfl
    | some text =>
      rw [Option.bind_some]
      dsimp only
      cases f.assignText f.variableName text <;> rfl
  rw [layer, mapM_eq_guarded, guarded_bind_pure, guarded_mapError, checks, values]

end Environment

namespace DotEnv

/-- The text that bindings give a name. -/
def Bindings.textOf? (bindings : Bindings) (name : String) : Option LooseText :=
  bindings.findSome? fun (n, value) => if n = name then value else none

theorem Bindings.textOf?_cons (n : String) (value : Option LooseText) (rest : Bindings)
    (name : String) :
    textOf? ((n, value) :: rest) name =
      (if n = name then value else none).or (textOf? rest name) := by
  rw [textOf?, List.findSome?_cons]
  dsimp only
  cases (if n = name then value else none) <;> rfl

theorem get?_append (env : Environment) (n name : String) (text : LooseText) :
    (env ++ [(n, text)]).get? name =
      (env.get? name).or (if n = name then some text else none) := by
  rw [Environment.get?, List.lookup_append]
  refine congrArg (Option.or _) ?_
  by_cases same : n = name
  · subst same
    simp
  · have other : (name == n) = false := beq_eq_false_iff_ne.mpr fun h => same h.symm
    rw [List.lookup_cons, other, if_neg same]
    rfl

/-- Variables that an environment has are kept. -/
theorem get?_extend {env env' : Environment} {bindings : Bindings}
    (h : extend env bindings = .ok env') (name : String) :
    env'.get? name = (env.get? name).or (bindings.textOf? name) := by
  induction bindings generalizing env with
  | nil =>
    cases h
    exact Option.or_none.symm
  | cons binding rest ih =>
    obtain ⟨n, value⟩ := binding
    rw [Bindings.textOf?_cons]
    cases value with
    | none =>
      rw [ite_self]
      exact ih h
    | some text =>
      rw [extend] at h
      by_cases known : (env.get? n).isSome = true
      · rw [if_pos known] at h
        rw [ih h]
        by_cases same : n = name
        · subst same
          obtain ⟨old, had⟩ := Option.isSome_iff_exists.mp known
          rw [had, Option.some_or, Option.some_or]
        · rw [if_neg same, Option.none_or]
      · rw [if_neg known] at h
        split at h
        · rw [ih h, get?_append, Option.or_assoc]
        · cases h

/-- The variables that the variable file of a workplace has for an environment. -/
def bindingsFor (w : Workplace) (env : Environment) : Bindings :=
  match text? w with
  | .ok (some cs) => if isOff env then [] else resolve env (statements cs)
  | _ => []

theorem get?_load {w : Workplace} {env env' : Environment} (h : (load w env).2 = .ok env')
    (name : String) : env'.get? name = (env.get? name).or ((bindingsFor w env).textOf? name) := by
  unfold load at h
  rw [bindingsFor]
  split at h
  · rename_i off
    cases h
    rw [off]
    split <;> exact Option.or_none.symm
  · rename_i on
    split at h
    · cases h
    · rename_i read
      cases h
      rw [read]
      exact Option.or_none.symm
    · rename_i cs read
      rw [read]
      simp only [on]
      exact get?_extend h name

end DotEnv

/-! ## The file -/

namespace SettingsFile

/-- The value that a file gives a field: that of the last entry under its name that has one. -/
def value? (file : SettingsFile) (f : Field) : Option Assignment :=
  file.entries.reverse.findSome? fun entry =>
    if entry.1 = .text (.ofString f.name) then (f.assignValue file.document entry.2).toOption
    else none

theorem filter_assignment (file : SettingsFile) (f : Field) (entry : Yaml.Value × Yaml.Value) :
    (((fieldOf? entry.1).bind fun g => (g.assignValue file.document entry.2).toOption).filter
      fun a => a.field = f) =
    if entry.1 = .text (.ofString f.name) then (f.assignValue file.document entry.2).toOption
    else none := by
  simp only [← fieldOf?_eq_some_iff]
  cases fieldOf? entry.1 with
  | none => rfl
  | some g =>
    simp only [Option.bind_some, Option.some_inj]
    cases assigned : g.assignValue file.document entry.2 with
    | error e =>
      by_cases same : g = f
      · rw [if_pos same, ← same, assigned]
        rfl
      · rw [if_neg same]
        rfl
    | ok a =>
      have own := Field.field_of_assignValue assigned
      by_cases same : g = f
      · rw [if_pos same, ← same, assigned]
        simp [Except.toOption, own]
      · simp [Except.toOption, own, same]

theorem lastOf_assignments (file : SettingsFile) :
    Settings.lastOf file.assignments = file.value? := by
  funext f
  rw [Settings.lastOf, assignments, ← List.filterMap_reverse, ← List.head?_filter,
    List.filter_filterMap, List.head?_filterMap, value?]
  exact congrArg (List.findSome? · _) (funext (filter_assignment file f))

end SettingsFile

/-! ## All layers -/

namespace SettingsSources

variable {w : Workplace} {sources : SettingsSources} {file : SettingsFile}

/-- The environment of a process, with the variable file taken over if that is asked for. -/
def surroundings (sources : SettingsSources) (w : Workplace) (process : Environment) :
    Except DotEnv.Error Environment :=
  if sources.variableFile then (DotEnv.load w process).2 else .ok process

/-- The file among the sources is what stands at its path; no file counts as one without
entries. -/
def Parses (sources : SettingsSources) (w : Workplace) (file : SettingsFile) : Prop :=
  if sources.path.getD "" = "" then file.entries = []
  else sources.path = some file.path ∧ file.Parsed w

/-- The settings behind the file, behind the environment, and behind everything. -/
structure Stages where
  filed : Settings
  surrounded : Settings
  overridden : Settings

/-- The checks in the order in which they are made. -/
def checks (file : SettingsFile) (environ : Environment) (stages : Stages) :
    List (Option LoadError) :=
  file.entries.map file.error? ++ stages.filed.conditions ++
    Field.all.map environ.error? ++ stages.surrounded.conditions ++
      stages.overridden.conditions

/-- The stages that layers lead to. -/
def stagesOf (sources : SettingsSources) (file : SettingsFile) (environ : Environment) : Stages :=
  let filed := file.assignments.foldl Settings.assign {}
  let surrounded := (Field.all.filterMap environ.value?).foldl Settings.assign filed
  ⟨filed, surrounded, sources.overrides.foldl Settings.assign surrounded⟩

theorem guarded_conditions_again {checks : List (Option LoadError)} (s : Settings) :
    guarded (checks ++ s.conditions ++ s.conditions) s = guarded (checks ++ s.conditions) s := by
  simp only [guarded, List.findSome?_append, Option.or_assoc, Option.or_self]

/-- The layer of the file, if there is one. -/
def fileLayers (sources : SettingsSources) (w : Workplace) :
    List (Except LoadError (List Assignment)) :=
  match sources.path with
  | none => []
  | some path => if path.isEmpty then [] else [loadSettingsFile w path]

theorem layers_eq (sources : SettingsSources) (w : Workplace) (env : Environment) :
    sources.layers w env = sources.fileLayers w ++
      [(sources.given.getD env).layer.mapError .settings] ++
        if sources.overrides.isEmpty then [] else [.ok sources.overrides] := rfl

/-- Without a file the layers start with the defaults, which satisfy the conditions. -/
theorem layered_fileLayers (parsed : sources.Parses w file) :
    (sources.fileLayers w).foldlM Settings.addLayer {} =
    guarded (file.entries.map file.error? ++
      (file.assignments.foldl Settings.assign {}).conditions)
      (file.assignments.foldl Settings.assign {}) := by
  have defaults (none : file.entries = []) : guarded (file.entries.map file.error? ++
      (file.assignments.foldl Settings.assign {}).conditions)
      (file.assignments.foldl Settings.assign {}) = .ok {} := by
    rw [SettingsFile.assignments, none]
    rfl
  unfold Parses at parsed
  rw [fileLayers]
  cases path : sources.path with
  | none =>
    rw [path, Option.getD_none, if_pos rfl] at parsed
    exact (defaults parsed).symm
  | some path' =>
    rw [path, Option.getD_some] at parsed
    dsimp only
    by_cases named : path' = ""
    · subst named
      rw [if_pos rfl] at parsed
      exact (defaults parsed).symm
    · rw [if_neg named] at parsed
      obtain ⟨same, there⟩ := parsed
      cases same
      rw [if_neg (by simpa using named), List.foldlM_cons,
        Settings.addLayer_eq there.loadSettingsFile_eq]
      exact bind_pure _

theorem layered_eq {env environ : Environment} (parsed : sources.Parses w file)
    (given : sources.given.getD env = environ) :
    Settings.layered (sources.layers w env) =
      guarded (checks file environ (sources.stagesOf file environ))
        (sources.stagesOf file environ).overridden := by
  have single (layer : Except LoadError (List Assignment)) (s : Settings) :
      [layer].foldlM Settings.addLayer s = s.addLayer layer :=
    bind_pure _
  rw [layers_eq, given, Settings.layered, List.foldlM_append, List.foldlM_append,
    layered_fileLayers parsed]
  simp only [single]
  rw [guarded_bind (f := fun s : Settings => s.addLayer (environ.layer.mapError .settings))
    (Settings.addLayer_eq environ.layer_eq _), ← List.append_assoc, checks, stagesOf]
  cases overrides : sources.overrides with
  | nil =>
    -- there is no layer, and the conditions that count for it were just checked
    exact (bind_pure _).trans (guarded_conditions_again _).symm
  | cons a rest =>
    have explicit : (.ok (a :: rest) : Except LoadError (List Assignment)) =
        guarded [] (a :: rest) := rfl
    exact guarded_bind ((single _ _).trans (Settings.addLayer_eq explicit _))

theorem loadSettings_eq {process env : Environment}
    (taken : sources.surroundings w process = .ok env) :
    (loadSettings w process sources).2 = Settings.layered (sources.layers w env) := by
  unfold surroundings at taken
  rw [loadSettings]
  split at taken
  · rename_i file
    rw [if_pos file, ← Prod.eta (DotEnv.load w process), taken]
  · rename_i no
    cases taken
    rw [if_neg no]

theorem get?_surroundings {process env : Environment}
    (taken : sources.surroundings w process = .ok env) (name : String) :
    env.get? name = (process.get? name).or
      (if sources.variableFile then (DotEnv.bindingsFor w process).textOf? name else none) := by
  unfold surroundings at taken
  split at taken
  · rename_i file
    rw [if_pos file]
    exact DotEnv.get?_load taken name
  · rename_i no
    cases taken
    rw [if_neg no, Option.or_none]

end SettingsSources

/-! ## The outcome -/

open SettingsSources Settings

theorem Settings.check_of_conditions {s : Settings} (h : ∀ check ∈ s.conditions, check = none) :
    s.check = .ok () := by
  have checked := (check_eq s).trans (guarded_eq_ok_iff.mpr ⟨h, rfl⟩)
  cases found : s.check with
  | error v =>
    rw [found] at checked
    cases checked
  | ok _ => rfl

theorem told_of_mem_conditions {s : Settings} {e : LoadError} (h : some e ∈ s.conditions) :
    e.Told := by
  obtain ⟨v, -, fails⟩ := List.mem_map.mp h
  rw [Violation.error?] at fails
  split at fails <;> cases fails
  exact ⟨_, rfl⟩

theorem Environment.told_of_error? {env : Environment} {f : Field} {e : LoadError}
    (h : env.error? f = some e) : e.Told := by
  obtain ⟨_, -, failed⟩ := Option.bind_eq_some_iff.mp h
  obtain ⟨told, -, rfl⟩ := Option.map_eq_some_iff.mp failed
  exact ⟨told, rfl⟩

theorem told_of_mem_checks {file : SettingsFile} {environ : Environment} {stages : Stages}
    (entries : ∀ entry ∈ file.entries, ∀ e, file.error? entry = some e → e.Told)
    {e : LoadError} (h : some e ∈ checks file environ stages) : e.Told := by
  simp only [checks, List.mem_append, List.mem_map] at h
  obtain (((⟨entry, member, fails⟩ | filed) | ⟨f, -, fails⟩) | surrounded) | overridden := h
  · exact entries entry member e fails
  · exact told_of_mem_conditions filed
  · exact Environment.told_of_error? fails
  · exact told_of_mem_conditions surrounded
  · exact told_of_mem_conditions overridden

variable {w : Workplace} {process env : Environment} {sources : SettingsSources}
  {file : SettingsFile}

/-- Settings are loaded in layers: entries of the file, variables of the environment in field
order, and what was asked for explicitly, with all conditions checked behind each.  The first check
that fails is the error.  If none fails, each field has the value of the uppermost layer that gives
it one, all conditions hold, and there is a machine of the settings.  All errors are told to the
user, if those of the entries are.  A variable file counts for names that the process does not
have. -/
theorem loadSettings_of_layers (taken : sources.surroundings w process = .ok env)
    (parsed : sources.Parses w file) :
    let environ := sources.given.getD env
    let result := (loadSettings w process sources).2
    ∃ stages : Stages,
      stages.filed.Over [file.value?] ∧
      stages.surrounded.Over [environ.value?, file.value?] ∧
      stages.overridden.Over [lastOf sources.overrides, environ.value?, file.value?] ∧
      (∀ e, result = .error e ↔ (checks file environ stages).findSome? id = some e) ∧
      (∀ s, result = .ok s ↔
        (∀ check ∈ checks file environ stages, check = none) ∧ s = stages.overridden) ∧
      (∀ s, result = .ok s →
        (0 < s.initialCells ∧ s.initialCells ≤ s.maxCells ∧ 0 < s.maxFileSize ∧
          0 < s.maxCodeLength ∧ 0 < s.dumpCount) ∧
        ∀ input, ∃ m, Machine.ofSettings? s input = .ok m) ∧
      ((∀ entry ∈ file.entries, ∀ e, file.error? entry = some e → e.Told) →
        ∀ e, result = .error e → e.Told) ∧
      ∀ name, env.get? name = (process.get? name).or
        (if sources.variableFile then (DotEnv.bindingsFor w process).textOf? name else none) := by
  intro environ result
  have outcome : result = guarded (checks file environ (sources.stagesOf file environ))
      (sources.stagesOf file environ).overridden :=
    (loadSettings_eq taken).trans (layered_eq parsed rfl)
  have filed : (sources.stagesOf file environ).filed.Over [file.value?] :=
    file.lastOf_assignments ▸ Over.foldl_assign (fun _ => rfl) _
  -- in field order each field is assigned once, so the last assignment is the variable's
  have surrounded := filed.foldl_assign (Field.all.filterMap environ.value?)
  rw [show lastOf (Field.all.filterMap environ.value?) = environ.value? from
    funext (lastOf_filterMap fun _ _ => Environment.field_of_value?)] at surrounded
  have valid : ∀ s, result = .ok s → s.check = .ok () := by
    intro s loaded
    rw [outcome, guarded_eq_ok_iff] at loaded
    obtain ⟨passed, rfl⟩ := loaded
    exact check_of_conditions fun check member => passed check (List.mem_append_right _ member)
  refine ⟨sources.stagesOf file environ, filed, surrounded, surrounded.foldl_assign _,
    fun e => ?_, fun s => ?_,
    fun s loaded => ⟨check_eq_ok_iff.mp (valid s loaded), fun input => ?_⟩,
    fun entries e failed => ?_, get?_surroundings taken⟩
  · rw [outcome, guarded_eq_error_iff]
  · rw [outcome, guarded_eq_ok_iff]
  · obtain ⟨tape, makes⟩ := Machine.exists_tape_of_check (valid s loaded)
    exact ⟨_, makes input⟩
  · rw [outcome, guarded_eq_error_iff] at failed
    obtain ⟨check, member, rfl⟩ := List.exists_of_findSome?_eq_some failed
    exact told_of_mem_checks entries member

/-- Settings that would be valid in the end, and are refused behind the file. -/
theorem loadSettings_of_layers_midway :
    ∃ (w : Workplace) (file : SettingsFile) (environ : Environment) (stages : Stages),
      file.entries = [(.text (.ofString "max_cells"), .integer 9)] ∧
      environ = [("TRBBFI_INITIAL_CELLS", .ofString "4")] ∧
      stages.overridden.Over [lastOf [.debug true], environ.value?, file.value?] ∧
      stages.overridden.check = .ok () ∧
      (checks file environ stages).findSome? id = some (.settings (.violation .maxCells)) ∧
      (loadSettings w [] ⟨some "c", some environ, false, [.debug true]⟩).2 =
        .error (.settings (.violation .maxCells)) := by
  have parses : (Yaml.read (.ofBytes (Utf8.bytesOf "max_cells: 9"))).toOption.map
      (fun d => (d.root, d.contentsOf 0)) =
      some (.collection .mapping 0, .pairs [(.text (.ofString "max_cells"), .integer 9)]) := by
    decide +kernel
  obtain ⟨d, parsed, parts⟩ := Option.map_eq_some_iff.mp parses
  let w : Workplace := .ofEntries [(["c"], .file (Utf8.bytesOf "max_cells: 9"))]
  let file : SettingsFile := ⟨"c", d, [(.text (.ofString "max_cells"), .integer 9)]⟩
  let environ : Environment := [("TRBBFI_INITIAL_CELLS", .ofString "4")]
  have there : file.Parsed w :=
    ⟨(by decide : Workplace.validPath "c" = true),
      ⟨_, Workplace.read_only _, eq_ok_of_toOption parsed⟩,
      .inr ⟨0, (Prod.mk.inj parts).1, (Prod.mk.inj parts).2⟩⟩
  have key : fieldOf? (.text (.ofString "max_cells")) = some .maxCells :=
    fieldOf?_eq_some_iff.mpr rfl
  have assigned : file.assignments = [.maxCells 9] := by
    simp only [file, SettingsFile.assignments, List.filterMap_cons, key]
    rfl
  have given : file.value? = lastOf [.maxCells 9] := assigned ▸ file.lastOf_assignments.symm
  obtain ⟨stages, filed, _, overridden, errors, _⟩ :=
    @loadSettings_of_layers w [] [] ⟨some "c", some environ, false, [.debug true]⟩ file rfl
      ⟨rfl, there⟩
  have first : (checks file environ stages).findSome? id =
      some (.settings (.violation .maxCells)) := by
    have entries : file.entries.map file.error? = [none] := by
      simp only [file, List.map_cons, List.map_nil, SettingsFile.error?, key]
      rfl
    have behind : stages.filed = { maxCells := 9 } :=
      ext_get fun f => (filed f).trans (by rw [given]; cases f <;> decide +kernel)
    rw [checks, entries, behind]
    rfl
  refine ⟨w, file, environ, stages, rfl, rfl, overridden, ?_, first, (errors _).mpr first⟩
  have whole : stages.overridden = { initialCells := 4, maxCells := 9, debug := true } :=
    ext_get fun f => (overridden f).trans (by rw [given]; cases f <;> decide +kernel)
  rw [whole]
  rfl

end Brainfuck
