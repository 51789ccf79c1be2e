import Brainfuck.Settings.Layers

/-! # Entries of a settings file

A settings file is a list of entries that are looked at one after the other, and each is either an
assignment or an error.

* `guarded` — a value behind a list of checks, with `guarded_bind` and `mapM_eq_guarded`;
* `fieldOf?` — the field that a key names;
* `SettingsFile` — a file as it is parsed, with what its entries come to;
* `loadSettingsFile_eq` — the assignments of a file behind the checks of its entries.
-/

namespace Brainfuck

variable {ε α β : Type}

/-! ## Values behind checks -/

/-- The error that a computation ends in, if it ends in one. -/
def failure? : Except ε α → Option ε
  | .ok _ => none
  | .error e => some e

@[simp] theorem failure?_ok (a : α) : failure? (.ok a : Except ε α) = none := rfl

@[simp] theorem failure?_error (e : ε) : failure? (.error e : Except ε α) = some e := rfl

theorem failure?_eq_some_iff {r : Except ε α} {e : ε} : failure? r = some e ↔ r = .error e := by
  cases r <;> simp

theorem bind_eq_ok_iff {r : Except ε α} {f : α → Except ε β} {b : β} :
    (r >>= f) = .ok b ↔ ∃ a, r = .ok a ∧ f a = .ok b := by
  cases r <;> simp [bind, Except.bind]

/-- A value behind checks, each with its error if it fails; the first one that does is told. -/
def guarded (checks : List (Option ε)) (a : α) : Except ε α :=
  match checks.findSome? id with
  | some e => .error e
  | none => .ok a

theorem guarded_eq_error_iff {checks : List (Option ε)} {a : α} {e : ε} :
    guarded checks a = .error e ↔ checks.findSome? id = some e := by
  unfold guarded
  cases checks.findSome? id with
  | some first => simp
  | none => simp

theorem guarded_eq_ok_iff {checks : List (Option ε)} {a b : α} :
    guarded checks a = .ok b ↔ (∀ check ∈ checks, check = none) ∧ b = a := by
  unfold guarded
  split
  · rename_i e found
    obtain ⟨check, member, fails⟩ := List.exists_of_findSome?_eq_some found
    refine iff_of_false (by simp) fun passed => ?_
    rw [passed.1 check member] at fails
    cases fails
  · rename_i found
    rw [List.findSome?_eq_none_iff] at found
    simp only [Except.ok.injEq]
    exact ⟨fun same => ⟨found, same.symm⟩, fun passed => passed.2.symm⟩

theorem guarded_ite_cons {p : Prop} [Decidable p] (e : ε) (later : List (Option ε)) (a : α) :
    guarded ((if p then some e else none) :: later) a =
      if p then .error e else guarded later a := by
  split <;> rfl

/-- Computations one after the other make their checks one after the other. -/
theorem guarded_bind {checks later : List (Option ε)} {a : α} {b : β} {f : α → Except ε β}
    (h : f a = guarded later b) : (guarded checks a >>= f) = guarded (checks ++ later) b := by
  unfold guarded at h ⊢
  rw [List.findSome?_append]
  cases checks.findSome? id with
  | some e => rfl
  | none => exact h

theorem guarded_bind_pure (checks : List (Option ε)) (a : α) (f : α → β) :
    (guarded checks a >>= fun a => pure (f a)) = guarded checks (f a) := by
  unfold guarded
  split <;> rfl

/-- Checks can be put in other words, as long as the first failure stays the same. -/
theorem guarded_mapError {δ : Type} {checks : List (Option ε)} {a : α} (g : ε → δ) :
    (guarded checks a).mapError g = guarded (checks.map (Option.map g)) a := by
  have found : (checks.map (Option.map g)).findSome? id = (checks.findSome? id).map g := by
    induction checks with
    | nil => rfl
    | cons check checks ih => cases check <;> simp [ih]
  rw [guarded, guarded, found]
  cases checks.findSome? id <;> rfl

theorem mapM_eq_guarded (f : α → Except ε β) (l : List α) :
    l.mapM f =
      guarded (l.map fun a => failure? (f a)) (l.filterMap fun a => (f a).toOption) := by
  induction l with
  | nil => rfl
  | cons a l ih =>
    rw [List.mapM_cons, ih]
    cases done : f a with
    | error e => simp [done, failure?, guarded, bind, Except.bind]
    | ok b =>
      rw [List.map_cons, List.filterMap_cons, done]
      exact guarded_bind_pure _ _ (b :: ·)

/-! ## Keys -/

theorem Field.ofName?_eq_some_iff {name : String} {f : Field} :
    ofName? name = some f ↔ name = f.name := by
  constructor
  · intro found
    have same := List.find?_some found
    exact (beq_iff_eq.mp same).symm
  · rintro rfl
    cases f <;> decide

/-- The field that a key names. -/
def fieldOf? : Yaml.Value → Option Field
  | .text name => name.toString?.bind Field.ofName?
  | _ => none

theorem fieldOf?_eq_some_iff {key : Yaml.Value} {f : Field} :
    fieldOf? key = some f ↔ key = .text (.ofString f.name) := by
  cases key with
  | text name =>
    simp only [fieldOf?, Option.bind_eq_some_iff, LooseText.toString?_eq_some_iff,
      Field.ofName?_eq_some_iff, Yaml.Value.text.injEq]
    exact exists_eq_right
  | _ => simp [fieldOf?]

/-! ## Assignments -/

namespace Field

variable {f : Field} {a : Assignment}

theorem eq_debug (h : f.kind = .boolean) : f = debug := by
  cases f <;> first | rfl | cases h

theorem eq_prompt (h : f.kind = .text) : f = prompt := by
  cases f <;> first | rfl | cases h

theorem field_of_assignInteger {n : Int} (h : f.assignInteger n = some a) : a.field = f := by
  cases f <;> cases h <;> rfl

theorem assignText_of_integer {name : String} {text : LooseText} (kind : f.kind = .integer) :
    f.assignText name text =
      match (readInteger? text).bind f.assignInteger with
      | some a => .ok a
      | none => .error (.notAnInteger name text.quoted) := by
  cases f <;> first | rfl | cases kind

theorem field_of_assignText {name : String} {text : LooseText}
    (h : f.assignText name text = .ok a) : a.field = f := by
  cases kind : f.kind with
  | boolean =>
    obtain rfl := eq_debug kind
    simp only [assignText] at h
    split at h <;> cases h
    rfl
  | text =>
    obtain rfl := eq_prompt kind
    cases h
    rfl
  | integer =>
    rw [assignText_of_integer kind] at h
    split at h <;> cases h
    rename_i found
    obtain ⟨n, -, assigned⟩ := Option.bind_eq_some_iff.mp found
    exact field_of_assignInteger assigned

theorem notAnInteger_eq (f : Field) (d : Yaml.Document) (v : Yaml.Value) :
    f.notAnInteger d v = .error
      (match d.literal v with
      | .ok text => .settings (.notAnInteger f.name text)
      | .error e => .value e) := by
  rw [notAnInteger, shown]
  cases d.literal v <;> rfl

theorem field_of_assignNumber {d : Yaml.Document} {v : Yaml.Value} {n : Option Int}
    (h : f.assignNumber d v n = .ok a) : a.field = f := by
  rw [assignNumber] at h
  split at h
  · rename_i found
    cases h
    obtain ⟨n, -, assigned⟩ := Option.bind_eq_some_iff.mp found
    exact field_of_assignInteger assigned
  · rw [notAnInteger_eq] at h
    cases h

theorem field_of_assignIntegerValue {d : Yaml.Document} {v : Yaml.Value}
    (h : f.assignIntegerValue d v = .ok a) : a.field = f := by
  unfold assignIntegerValue at h
  split at h
  · exact field_of_assignNumber h
  · split at h
    · cases h
    · exact field_of_assignNumber h
  · exact field_of_assignNumber h
  · exact field_of_assignNumber h
  · rw [notAnInteger_eq] at h
    cases h

theorem field_of_assignValue {d : Yaml.Document} {v : Yaml.Value}
    (h : f.assignValue d v = .ok a) : a.field = f := by
  unfold assignValue at h
  split at h
  · rename_i kind
    obtain rfl := eq_debug kind
    split at h
    · cases h
      rfl
    · obtain ⟨text, -, h⟩ := bind_eq_ok_iff.mp h
      split at h
      · cases h
        rfl
      · obtain ⟨told, -, h⟩ := bind_eq_ok_iff.mp h
        cases h
  · rename_i kind
    obtain rfl := eq_prompt kind
    obtain ⟨text, -, h⟩ := bind_eq_ok_iff.mp h
    cases h
    rfl
  · exact field_of_assignIntegerValue h

end Field

/-! ## Files -/

/-- The error is one of the settings, and is told to the user. -/
def LoadError.Told (e : LoadError) : Prop :=
  ∃ told, e = .settings told

/-- The one file of a workplace is read. -/
theorem Workplace.read_only (content : List UInt8) :
    (ofEntries [(["c"], .file content)]).read "c" = .ok content := by
  have names : "c".splitOn "/" = ["c"] := by
    rw [String.splitOn, if_neg (by decide), String.splitOnAux, if_neg (by decide),
      if_neg (by decide), String.splitOnAux, if_pos (by decide)]
    decide
  rw [read, locate, names]
  rfl

/-- A settings file as it is parsed, before any of its entries is looked at. -/
structure SettingsFile where
  path : String
  document : Yaml.Document
  entries : List (Yaml.Value × Yaml.Value)

namespace SettingsFile

/-- The file is what stands at its path: nothing, or a mapping. -/
structure Parsed (w : Workplace) (file : SettingsFile) : Prop where
  clean : Workplace.validPath file.path = true
  read : ∃ content, w.read file.path = .ok content ∧
    Yaml.read (.ofBytes content) = .ok file.document
  holds : (file.document.root = .null ∧ file.entries = []) ∨
    ∃ node, file.document.root = .collection .mapping node ∧
      file.document.contentsOf node = .pairs file.entries

/-- The error of an entry, if there is one: its key names no field, or its value cannot be that
field's. -/
def error? (file : SettingsFile) (entry : Yaml.Value × Yaml.Value) : Option LoadError :=
  match fieldOf? entry.1 with
  | some f => failure? (f.assignValue file.document entry.2)
  | none =>
    match file.document.text entry.1 with
    | .ok key => some (.settings (.unknownSetting file.path key))
    | .error e => some (.value e)

/-- The assignments of the entries that have no error. -/
def assignments (file : SettingsFile) : List Assignment :=
  file.entries.filterMap fun entry =>
    (fieldOf? entry.1).bind fun f => (f.assignValue file.document entry.2).toOption

variable {w : Workplace} {file : SettingsFile}

theorem readEntry_eq (path : String) (d : Yaml.Document) (entry : Yaml.Value × Yaml.Value) :
    readEntry path d entry =
      match fieldOf? entry.1 with
      | some f => f.assignValue d entry.2
      | none =>
        match d.text entry.1 with
        | .ok key => .error (.settings (.unknownSetting path key))
        | .error e => .error (.value e) := by
  change (match fieldOf? entry.1 with
    | some f => f.assignValue d entry.2
    | none => do
      let key ← (d.text entry.1).mapError LoadError.value
      throw (LoadError.settings (.unknownSetting path key))) = _
  cases fieldOf? entry.1 with
  | some f => rfl
  | none => cases d.text entry.1 <;> rfl

theorem mapM_readEntry (file : SettingsFile) :
    file.entries.mapM (readEntry file.path file.document) =
      guarded (file.entries.map file.error?) file.assignments := by
  have errors : (fun entry => failure? (readEntry file.path file.document entry)) =
      file.error? := by
    funext entry
    rw [readEntry_eq, error?]
    cases fieldOf? entry.1 with
    | some f => rfl
    | none => cases file.document.text entry.1 <;> rfl
  have values : (fun entry => (readEntry file.path file.document entry).toOption) = fun entry =>
      (fieldOf? entry.1).bind fun f => (f.assignValue file.document entry.2).toOption := by
    funext entry
    rw [readEntry_eq]
    cases fieldOf? entry.1 with
    | some f => rfl
    | none => cases file.document.text entry.1 <;> rfl
  rw [mapM_eq_guarded, errors, values, assignments]

theorem readSettingsText_of_ok {path : String} {complaint : LooseText} {text : Yaml.Source}
    {d : Yaml.Document} (parsed : Yaml.read text = .ok d) :
    readSettingsText path complaint text = readLayer path d := by
  delta readSettingsText
  rw [parsed]

theorem Parsed.loadSettingsFile_eq (h : file.Parsed w) :
    loadSettingsFile w file.path = guarded (file.entries.map file.error?) file.assignments := by
  obtain ⟨content, read, parsed⟩ := h.read
  rw [← mapM_readEntry, loadSettingsFile, h.clean, Bool.not_true, if_neg Bool.false_ne_true, read]
  dsimp only
  rw [readSettingsText_of_ok parsed, readLayer]
  rcases h.holds with ⟨root, none⟩ | ⟨node, root, entries⟩
  · rw [root, none]
    rfl
  · rw [root]
    simp only [entries]

end SettingsFile

end Brainfuck
