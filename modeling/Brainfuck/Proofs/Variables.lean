import Brainfuck.Proofs.Layering
import Brainfuck.Proofs.Numerals

/-! # Settings as variables

Settings that are written into an environment are found there again.

* `Assignment.text?` — a value as it is written, if it can be;
* `Assignment.Rendered` — the texts that stand for a value: the one it is written as, with other
  letters for a boolean and with blanks around a boolean or an integer;
* `Environment.Renders` — an environment that has some fields of settings as variables;
* `loadSettings_of_renders` — what is loaded from such an environment.

A variable is read for itself (`assignText_of_rendered`), so it does not matter what else an
environment holds.  The conditions on settings are looked at behind the whole layer only, where the
settings are those that were written.
-/

namespace Brainfuck

variable {c : Settings} {env : Environment} {front word letters behind : List Char}
  {text : LooseText} {a : Assignment}

/-! ## Texts of values -/

/-- The text of a value; an integer of too many digits has none. -/
def Assignment.text? : Assignment → Option LooseText
  | initialCells n | maxCells n | maxFileSize n | maxCodeLength n | dumpCount n =>
    (Numeral.write? n).map .ofString
  | debug b => some (.ofString (if b then "True" else "False"))
  | prompt text => some text

/-- A text that stands for a value.  Spaces and tabs may be put around what the value is written as
and letters may be capital or not, where this says so. -/
inductive Assignment.Rendered (a : Assignment) : LooseText → Prop
  | text {text : LooseText} (kind : a.field.kind = .text) (written : a.text? = some text) :
    Rendered a text
  | integer {digits front behind : List Char} (kind : a.field.kind = .integer)
    (written : a.text? = some (.ofChars digits))
    (around : ∀ c ∈ front ++ behind, c = ' ' ∨ c = '\t') :
    Rendered a (.ofChars (front ++ digits ++ behind))
  | boolean {word letters front behind : List Char} (kind : a.field.kind = .boolean)
    (written : a.text? = some (.ofChars word))
    (same : letters.map Char.toLower = word.map Char.toLower)
    (around : ∀ c ∈ front ++ behind, c = ' ' ∨ c = '\t') :
    Rendered a (.ofChars (front ++ letters ++ behind))

/-- Of the fields that are chosen the environment has texts that stand for their values, and of the
others it has none. -/
def Environment.Renders (env : Environment) (c : Settings) (chosen : Field → Bool) : Prop :=
  ∀ f, if chosen f then ∃ text, env.get? f.variableName = some text ∧ (c.get f).Rendered text
    else env.get? f.variableName = none

/-! ## Reading one text -/

theorem isMargin_of_blank {ch : Char} (blank : ch = ' ' ∨ ch = '\t') :
    Numeral.isMargin ch = true := by
  rcases blank with rfl | rfl <;> decide

theorem isBlank_of_blank {ch : Char} (blank : ch = ' ' ∨ ch = '\t') : Text.isBlank ch = true := by
  rcases blank with rfl | rfl <;> decide

theorem readInteger?_around {n : Int} {digits : String} (written : Numeral.write? n = some digits)
    (around : ∀ c ∈ front ++ behind, c = ' ' ∨ c = '\t') :
    readInteger? (.ofChars (front ++ digits.toList ++ behind)) = some n := by
  rw [readInteger?, LooseText.chars?_ofChars, Option.bind_some]
  exact Numeral.read?_around written fun c member => isMargin_of_blank (around c member)

theorem isBlank_toLower {ch : Char} (blank : Text.isBlank ch = true) :
    Text.isBlank ch.toLower = true := by
  have other : ch.toLower = ch := by
    -- a capital letter is no blank
    refine dif_neg fun capital => ?_
    have low : 65 ≤ ch.toNat := capital.1
    have high : ch.toNat ≤ 90 := capital.2
    simp only [Text.isBlank, Bool.or_eq_true, Bool.and_eq_true, decide_eq_true_eq,
      beq_iff_eq] at blank
    omega
  rw [other, blank]

theorem readBoolean?_around {b : Bool}
    (same : letters.map Char.toLower = (if b then "true" else "false").toList)
    (around : ∀ c ∈ front ++ behind, c = ' ' ∨ c = '\t') :
    readBoolean? (.ofChars (front ++ letters ++ behind)) = some b := by
  have visible : ∀ ch ∈ letters, Text.isBlank ch = false := by
    intro ch member
    have lower : ch.toLower ∈ (if b then "true" else "false").toList :=
      same ▸ List.mem_map_of_mem member
    have words : ∀ d ∈ (if b then "true" else "false").toList, Text.isBlank d = false :=
      Text.visible_of_all (by cases b <;> decide)
    cases blank : Text.isBlank ch with
    | false => rfl
    | true =>
      rw [← words _ lower, isBlank_toLower blank]
  have trimmed : Text.trim (front ++ letters ++ behind) = letters :=
    dropWhile_around (fun c member => isBlank_of_blank (around c member)) visible
  rw [readBoolean?, LooseText.chars?_ofChars, Option.bind_eq_bind, Option.bind_some, trimmed, same]
  cases b <;> decide

theorem Assignment.exists_integer (kind : a.field.kind = .integer) :
    ∃ n, a.field.assignInteger n = some a ∧ a.text? = (Numeral.write? n).map .ofString := by
  cases a with
  | debug _ => cases kind
  | prompt _ => cases kind
  | _ => exact ⟨_, rfl, rfl⟩

theorem exists_text? (short : ∀ n, a.field.assignInteger n = some a →
    (Nat.toDigits 10 n.natAbs).length ≤ Numeral.maxDigits) : ∃ text, a.text? = some text := by
  cases kind : a.field.kind with
  | integer =>
    obtain ⟨n, assigned, texts⟩ := Assignment.exists_integer kind
    rw [texts, Numeral.write?_eq_some_iff.mpr ⟨short n assigned, rfl⟩]
    exact ⟨_, rfl⟩
  | boolean | text =>
    cases a with
    | debug _ => exact ⟨_, rfl⟩
    | prompt _ => exact ⟨_, rfl⟩
    | _ => cases kind

/-- The text that a value is written as stands for it. -/
theorem Assignment.Rendered.of_text? (written : a.text? = some text) : a.Rendered text := by
  have alone (cs : List Char) : [] ++ cs ++ [] = cs := List.append_nil cs
  have none : ∀ c ∈ ([] ++ [] : List Char), c = ' ' ∨ c = '\t' := by simp
  cases kind : a.field.kind with
  | text => exact .text kind written
  | integer =>
    obtain ⟨n, _, texts⟩ := Assignment.exists_integer kind
    obtain ⟨digits, _, rfl⟩ := Option.map_eq_some_iff.mp (texts.symm.trans written)
    rw [LooseText.ofString, ← alone digits.toList]
    exact .integer kind written none
  | boolean =>
    cases a with
    | debug b =>
      obtain rfl := Option.some.inj written
      rw [LooseText.ofString, ← alone (if b then "True" else "False").toList]
      exact .boolean kind written rfl none
    | _ => cases kind

theorem toList_of_ofString_eq {s : String} {cs : List Char}
    (same : LooseText.ofString s = .ofChars cs) : s.toList = cs := by
  have read := congrArg LooseText.chars? same
  rw [LooseText.ofString, LooseText.chars?_ofChars, LooseText.chars?_ofChars] at read
  exact Option.some.inj read

/-- A text that stands for a value is read as this value. -/
theorem assignText_of_rendered (h : a.Rendered text) (name : String) :
    a.field.assignText name text = .ok a := by
  cases h with
  | text kind written =>
    cases a with
    | prompt value =>
      cases written
      rfl
    | _ => cases kind
  | integer kind written around =>
    obtain ⟨n, assigned, texts⟩ := Assignment.exists_integer kind
    obtain ⟨digits, known, same⟩ := Option.map_eq_some_iff.mp (texts.symm.trans written)
    rw [Field.assignText_of_integer kind, ← toList_of_ofString_eq same,
      readInteger?_around known around, Option.bind_some, assigned]
  | @boolean word letters front behind kind written same around =>
    cases a with
    | debug b =>
      have spelled : word.map Char.toLower = (if b then "true" else "false").toList := by
        rw [← toList_of_ofString_eq (Option.some.inj written)]
        cases b <;> decide
      simp only [Assignment.field, Field.assignText,
        readBoolean?_around (same.trans spelled) around]
    | _ => cases kind

/-! ## Reading a layer -/

namespace Environment

variable {chosen : Field → Bool}

theorem field_get (c : Settings) (f : Field) : (c.get f).field = f := by
  cases f <;> rfl

theorem assignText_get {f : Field} (h : (c.get f).Rendered text) (name : String) :
    f.assignText name text = .ok (c.get f) := by
  have read := assignText_of_rendered h name
  rwa [field_get] at read

theorem Renders.value?_eq (h : env.Renders c chosen) (f : Field) :
    env.value? f = if chosen f then some (c.get f) else none := by
  have given := h f
  split at given
  · rename_i yes
    obtain ⟨text, found, rendered⟩ := given
    rw [value?, found, Option.bind_some, assignText_get rendered, if_pos yes]
    rfl
  · rename_i no
    rw [value?, given, if_neg no]
    rfl

theorem Renders.error?_eq (h : env.Renders c chosen) (f : Field) : env.error? f = none := by
  have given := h f
  split at given
  · obtain ⟨text, found, rendered⟩ := given
    rw [error?, found, Option.bind_some, assignText_get rendered]
    rfl
  · rw [error?, given]
    rfl

theorem filterMap_ite_some {α β : Type} (p : α → Bool) (f : α → β) (l : List α) :
    l.filterMap (fun a => if p a then some (f a) else none) = (l.filter p).map f := by
  induction l with
  | nil => rfl
  | cons a l ih => by_cases h : p a = true <;> simp [h, ih]

theorem Renders.layer_eq (h : env.Renders c chosen) :
    env.layer = .ok ((Field.all.filter chosen).map c.get) := by
  have values : Field.all.filterMap env.value? = (Field.all.filter chosen).map c.get := by
    rw [← filterMap_ite_some]
    exact congrArg (List.filterMap · Field.all) (funext h.value?_eq)
  have read : env.layer.mapError LoadError.settings =
      .ok ((Field.all.filter chosen).map c.get) := by
    rw [Environment.layer_eq, values, guarded_eq_ok_iff]
    refine ⟨fun check member => ?_, rfl⟩
    obtain ⟨f, _, rfl⟩ := List.mem_map.mp member
    exact h.error?_eq f
  cases found : env.layer with
  | error e =>
    rw [found] at read
    cases read
  | ok assignments =>
    rw [found] at read
    exact congrArg Except.ok (Except.ok.inj read)

end Environment

/-! ## Settings and back -/

/-- Settings are what their fields make of the defaults. -/
theorem Settings.foldl_assign_get (c : Settings) : (Field.all.map c.get).foldl assign {} = c := by
  apply ext_get
  intro f
  have own : ∀ f a, (some (c.get f) : Option Assignment) = some a → a.field = f := by
    rintro f a ⟨⟩
    exact Environment.field_get c f
  rw [get_foldl_assign, ← List.filterMap_eq_map, show some ∘ c.get = fun f => some (c.get f) from
    rfl, lastOf_filterMap own]
  rfl

theorem loadSettings_given (w : Workplace) (process : Environment)
    (layer : env.layer = .ok (Field.all.map c.get)) (valid : c.check = .ok ()) :
    loadSettings w process ⟨none, some env, false, []⟩ = ([], .ok c) := by
  have only : Settings.layered (SettingsSources.layers ⟨none, some env, false, []⟩ w process) =
      ({} : Settings).addLayer (env.layer.mapError .settings) := bind_pure _
  have overlaid : ({} : Settings).overlay (Field.all.map c.get) = .ok c := by
    rw [Settings.overlay, Settings.foldl_assign_get]
    simp only [valid]
  show (([], Settings.layered (SettingsSources.layers ⟨none, some env, false, []⟩ w process)) :
    List String × Except LoadError Settings) = ([], .ok c)
  rw [only, layer]
  show (([], (({} : Settings).overlay (Field.all.map c.get)).mapError _) :
    List String × Except LoadError Settings) = ([], .ok c)
  rw [overlaid]
  rfl

theorem variableName_eq (f : Field) :
    f.variableName.toList = "TRBBFI_".toList ++ f.name.toList.map Char.toUpper := by
  cases f <;> decide

/-- Settings that satisfy the conditions, with integers of no more digits than can be written, have
a text for each field.  An environment that has such texts for some fields, and none for the others,
gives exactly these fields, in field order, with the values that they have in the settings.  One
that has a text for every field gives the settings back, where nothing else is asked for.  The names
of the variables are those of the fields in capital letters. -/
theorem loadSettings_of_renders (valid : c.check = .ok ())
    (short : ∀ f n, f.assignInteger n = some (c.get f) →
      (Nat.toDigits 10 n.natAbs).length ≤ Numeral.maxDigits) :
    (∀ f, ∃ text, (c.get f).text? = some text ∧ (c.get f).Rendered text) ∧
    (∀ env chosen, Environment.Renders env c chosen →
      env.layer = .ok ((Field.all.filter chosen).map c.get)) ∧
    (∀ env w process, Environment.Renders env c (fun _ => true) →
      loadSettings w process ⟨none, some env, false, []⟩ = ([], .ok c)) ∧
    ∀ f : Field, f.variableName.toList = "TRBBFI_".toList ++ f.name.toList.map Char.toUpper := by
  refine ⟨fun f => ?_, fun env chosen renders => renders.layer_eq,
    fun env w process renders => ?_, variableName_eq⟩
  · obtain ⟨text, written⟩ := exists_text? (a := c.get f) fun n assigned => by
      rw [Environment.field_get] at assigned
      exact short f n assigned
    exact ⟨text, written, .of_text? written⟩
  · have layer := renders.layer_eq
    have all : Field.all.filter (fun _ => true) = Field.all := rfl
    rw [all] at layer
    exact loadSettings_given w process layer valid

/-- Sizes above the default cap of the tape, with blanks around a number and a boolean. -/
theorem loadSettings_of_renders_large :
    ∃ (c : Settings) (env : Environment),
      c = { initialCells := 2000000, maxCells := 3000000, debug := true, prompt := .ofString " " } ∧
      env = [("PATH", .ofString "/bin"), ("TRBBFI_MAX_CELLS", .ofString "3000000"),
        ("TRBBFI_INITIAL_CELLS", .ofString "\t2000000 "), ("TRBBFI_DEBUG", .ofString " tRuE\t"),
        ("TRBBFI_MAX_FILE_SIZE", .ofString "1000000"),
        ("TRBBFI_MAX_CODE_LENGTH", .ofString "10000"), ("TRBBFI_DUMP_COUNT", .ofString "16"),
        ("TRBBFI_PROMPT", .ofString " ")] ∧
      env.layer = .ok (Field.all.map c.get) ∧
      loadSettings (.ofEntries []) [] ⟨none, some env, false, []⟩ = ([], .ok c) := by
  let c : Settings :=
    { initialCells := 2000000, maxCells := 3000000, debug := true, prompt := .ofString " " }
  let env : Environment :=
    [("PATH", .ofString "/bin"), ("TRBBFI_MAX_CELLS", .ofString "3000000"),
      ("TRBBFI_INITIAL_CELLS", .ofString "\t2000000 "), ("TRBBFI_DEBUG", .ofString " tRuE\t"),
      ("TRBBFI_MAX_FILE_SIZE", .ofString "1000000"),
      ("TRBBFI_MAX_CODE_LENGTH", .ofString "10000"), ("TRBBFI_DUMP_COUNT", .ofString "16"),
      ("TRBBFI_PROMPT", .ofString " ")]
  have short : ∀ f n, f.assignInteger n = some (c.get f) →
      (Nat.toDigits 10 n.natAbs).length ≤ Numeral.maxDigits := by
    intro f n assigned
    cases f <;> cases assigned <;> decide
  have renders : env.Renders c fun _ => true := by
    intro f
    rw [if_pos rfl]
    cases f with
    | initialCells =>
      refine ⟨.ofString "\t2000000 ", by decide +kernel, ?_⟩
      exact @Assignment.Rendered.integer _ "2000000".toList ['\t'] [' '] rfl (by decide +kernel)
        (by simp)
    | debug =>
      refine ⟨.ofString " tRuE\t", by decide +kernel, ?_⟩
      exact @Assignment.Rendered.boolean _ "True".toList "tRuE".toList [' '] ['\t'] rfl
        (by decide +kernel) (by decide) (by simp)
    | _ => exact ⟨_, rfl, .of_text? (by decide +kernel)⟩
  obtain ⟨_, layers, loads, _⟩ := @loadSettings_of_renders c rfl short
  exact ⟨c, env, rfl, rfl, layers env _ renders, loads env _ _ renders⟩

end Brainfuck
