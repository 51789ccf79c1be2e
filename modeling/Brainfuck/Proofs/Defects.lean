import Brainfuck.Proofs.Layering
import Brainfuck.Proofs.Numerals

/-! # Settings files that break loading off

A settings file is read, each of its values is turned into that of a field, and a value that is
refused is shown.  Each of these can go wrong in a way that is no error of the settings.

* `Yaml.Document.Unshowable`, `literalWithin_fails_iff` — the values that have no text;
* `Field.BreaksOn`, `SettingsFile.BreaksOn` — values and entries that are neither accepted nor
  refused, for every kind of value and of field;
* `SettingsFile.Defective` — files that break loading off (`untold_layered_iff`);
* `settings_told_iff` — with any other file there are settings, or an error that is told.

The layers above the file only have errors of the settings, and so have the conditions.  So
everything is decided by the first entry of the file that is not accepted.
-/

namespace Brainfuck

variable {ε α β γ : Type}

/-! ## Failures -/

theorem failure?_bind_pure (r : Except ε α) (f : α → β) :
    failure? (r >>= fun a => pure (f a)) = failure? r := by
  cases r <;> rfl

theorem failure?_bind_bind_pure (r : Except ε α) (later : Except ε β) (f : α → β → γ) :
    failure? (r >>= fun a => later >>= fun b => pure (f a b)) =
      (failure? r).or (failure? later) := by
  cases r <;> cases later <;> rfl

theorem failure?_mapM (f : α → Except ε β) (l : List α) :
    failure? (l.mapM f) = l.findSome? fun a => failure? (f a) := by
  rw [mapM_eq_guarded, guarded, List.findSome?_map]
  cases found : l.findSome? (id ∘ fun a => failure? (f a)) <;> exact found.symm

/-! ## Values that cannot be shown -/

namespace Yaml.Document

/-- The values that are shown where a collection is. -/
def members : Collection → Contents → List Value
  | .mapping, .items _ => []
  | _, .items values => values
  | _, .pairs entries => entries.flatMap fun entry => [entry.1, entry.2]
  | _, .tuples entries => entries.flatMap fun entry => [entry.1, entry.2]

/-- A value that has no text inside of some collections, when so many more may be opened: an integer
with too many digits, a collection when there may be no more, and a collection around such a value
that is not shown as dots. -/
inductive Unshowable (d : Document) : (bound : Nat) → (around : List Nat) → Value → Prop
  | tooLong {bound : Nat} {around : List Nat} {n : Int}
    (long : tenPow Numeral.maxDigits ≤ n.natAbs) : Unshowable d bound around (.integer n)
  | tooDeep {around : List Nat} (kind : Collection) (node : Nat) :
    Unshowable d 0 around (.collection kind node)
  | inside {bound : Nat} {around : List Nat} {kind : Collection} {node : Nat} {v : Value}
    (opened : node ∉ around) (member : v ∈ members kind (d.contentsOf node))
    (h : Unshowable d bound (node :: around) v) :
    Unshowable d (bound + 1) around (.collection kind node)

variable {d : Document} {bound : Nat} {around : List Nat} {v : Value}

theorem findSome?_entries (f : Value → Option α) (entries : List (Value × Value)) :
    (entries.flatMap fun entry => [entry.1, entry.2]).findSome? f =
      entries.findSome? fun entry => (f entry.1).or (f entry.2) := by
  induction entries with
  | nil => rfl
  | cons entry entries ih =>
    rw [List.flatMap_cons, List.findSome?_append, ih, List.findSome?_cons]
    simp only [List.findSome?_cons, List.findSome?_nil]
    cases f entry.1 <;> cases f entry.2 <;> rfl

/-- The text of a collection that is opened; `inner` shows what is inside of it. -/
def openedText (inner : Value → Except Error String) (kind : Collection) (contents : Contents) :
    Except Error String :=
  let pair (entry : Value × Value) (middle : String) : Except Error String := do
    let key ← inner entry.1
    let value ← inner entry.2
    return key ++ middle ++ value
  match kind, contents with
  | .list, .items values => do
    return "[" ++ commas (← values.mapM inner) ++ "]"
  | .set, .items [] => .ok "set()"
  | .set, .items values => do
    return "\x7b" ++ commas (← values.mapM inner) ++ "\x7d"
  | .mapping, .items _ => .ok "\x7b\x7d"
  | .list, .tuples entries => do
    let texts ← entries.mapM fun entry => pair entry ", "
    return "[" ++ commas (texts.map fun t => "(" ++ t ++ ")") ++ "]"
  | _, .tuples entries => do
    return "\x7b" ++ commas (← entries.mapM fun entry => pair entry ": ") ++ "\x7d"
  | _, .pairs entries => do
    return "\x7b" ++ commas (← entries.mapM fun entry => pair entry ": ") ++ "\x7d"

theorem literalWithin_collection (d : Document) (bound : Nat) (around : List Nat)
    (kind : Collection) (node : Nat) :
    d.literalWithin (bound + 1) around (.collection kind node) =
      if around.contains node then .ok (dots kind)
      else openedText (d.literalWithin bound (node :: around)) kind (d.contentsOf node) := rfl

/-- A collection is shown with its members, up to the first that has no text. -/
theorem failure?_openedText (inner : Value → Except Error String) (kind : Collection)
    (contents : Contents) :
    failure? (openedText inner kind contents) =
      (members kind contents).findSome? fun v => failure? (inner v) := by
  have listed (entries : List (Value × Value)) (middle : String) (finish : List String → String) :
      failure? (do
        let texts ← entries.mapM fun entry => do
          let key ← inner entry.1
          let value ← inner entry.2
          return key ++ middle ++ value
        return finish texts) =
      (entries.flatMap fun entry => [entry.1, entry.2]).findSome? fun v =>
        failure? (inner v) := by
    rw [failure?_bind_pure, failure?_mapM, findSome?_entries]
    simp only [failure?_bind_bind_pure]
  cases contents with
  | items values =>
    cases kind with
    | list => exact (failure?_bind_pure _ _).trans (failure?_mapM _ _)
    | mapping => rfl
    | set =>
      cases values with
      | nil => rfl
      | cons v values => exact (failure?_bind_pure _ _).trans (failure?_mapM _ _)
  | pairs entries => cases kind <;> exact listed entries ": " _
  | tuples entries =>
    cases kind with
    | list =>
      exact listed entries ", " fun texts =>
        "[" ++ commas (texts.map fun t => "(" ++ t ++ ")") ++ "]"
    | mapping => exact listed entries ": " _
    | set => exact listed entries ": " _

theorem integerText_fails_iff {n : Int} :
    failure? (integerText n) ≠ none ↔ tenPow Numeral.maxDigits ≤ n.natAbs := by
  rw [← Numeral.write?_eq_none_iff]
  delta integerText
  generalize Numeral.write? n = written
  cases written <;> simp

theorem unshowable_integer_iff {n : Int} :
    Unshowable d bound around (.integer n) ↔ tenPow Numeral.maxDigits ≤ n.natAbs := by
  constructor
  · rintro ⟨long⟩
    exact long
  · exact .tooLong

theorem not_unshowable (integer : ∀ n, v ≠ .integer n)
    (collection : ∀ kind node, v ≠ .collection kind node) : ¬ Unshowable d bound around v := by
  intro h
  cases h with
  | tooLong _ => exact integer _ rfl
  | tooDeep kind node => exact collection kind node rfl
  | inside _ _ _ => exact collection _ _ rfl

theorem literalWithin_fails_iff :
    failure? (d.literalWithin bound around v) ≠ none ↔ Unshowable d bound around v := by
  induction bound generalizing around v with
  | zero =>
    cases v with
    | integer n => exact integerText_fails_iff.trans unshowable_integer_iff.symm
    | collection kind node => exact iff_of_true (Option.some_ne_none _) (.tooDeep kind node)
    | _ => exact iff_of_false (fun fails => fails rfl) (not_unshowable (by simp) (by simp))
  | succ bound ih =>
    cases v with
    | integer n => exact integerText_fails_iff.trans unshowable_integer_iff.symm
    | collection kind node =>
      rw [literalWithin_collection]
      by_cases dotted : node ∈ around
      · rw [if_pos (by simpa using dotted)]
        refine iff_of_false (fun fails => fails rfl) ?_
        rintro (_ | _ | ⟨opened, _, _⟩)
        exact opened dotted
      · rw [if_neg (by simpa using dotted), failure?_openedText, ne_eq,
          List.findSome?_eq_none_iff]
        constructor
        · intro some
          obtain ⟨v, member, fails⟩ : ∃ v ∈ members kind (d.contentsOf node),
              failure? (d.literalWithin bound (node :: around) v) ≠ none := by
            simpa using some
          exact .inside dotted member (ih.mp fails)
        · rintro (_ | _ | ⟨_, member, unshowable⟩) none
          exact ih.mpr unshowable (none _ member)
    | _ => exact iff_of_false (fun fails => fails rfl) (not_unshowable (by simp) (by simp))

theorem literal_fails_iff :
    failure? (d.literal v) ≠ none ↔ Unshowable d maxShown [] v :=
  literalWithin_fails_iff

/-- Where a text is asked for, it is missing for the same values. -/
theorem text_fails_iff :
    failure? (d.text v) ≠ none ↔ Unshowable d maxShown [] v := by
  have shown : failure? ((d.literal v).map LooseText.ofString) ≠ none ↔
      Unshowable d maxShown [] v := by
    rw [← literal_fails_iff]
    cases d.literal v <;> exact Iff.rfl
  cases v with
  | text s => exact iff_of_false (fun fails => fails rfl) (not_unshowable (by simp) (by simp))
  | date t => exact iff_of_false (fun fails => fails rfl) (not_unshowable (by simp) (by simp))
  | moment m => exact iff_of_false (fun fails => fails rfl) (not_unshowable (by simp) (by simp))
  | _ => exact shown

end Yaml.Document

/-! ## Errors that are not told -/

/-- The computation ends in an error that is not told as one of the settings. -/
def Untold (r : Except LoadError α) : Prop :=
  ∃ e, r = .error e ∧ ¬ e.Told

@[simp] theorem told_settings (e : SettingsError) : (LoadError.settings e).Told :=
  ⟨e, rfl⟩

@[simp] theorem not_told_value (e : Yaml.Error) : ¬ (LoadError.value e).Told := by
  simp [LoadError.Told]

@[simp] theorem not_told_infiniteInteger : ¬ LoadError.infiniteInteger.Told := by
  simp [LoadError.Told]

@[simp] theorem not_untold_ok (a : α) : ¬ Untold (.ok a : Except LoadError α) := by
  simp [Untold]

@[simp] theorem untold_error_iff {e : LoadError} :
    Untold (.error e : Except LoadError α) ↔ ¬ e.Told := by
  simp [Untold]

theorem untold_bind_iff {r : Except LoadError α} {f : α → Except LoadError β} :
    Untold (r >>= f) ↔ Untold r ∨ ∃ a, r = .ok a ∧ Untold (f a) := by
  cases r <;> simp [bind, Except.bind]

theorem not_untold_iff {r : Except LoadError α} :
    ¬ Untold r ↔ (∃ a, r = .ok a) ∨ ∃ e, r = .error (.settings e) := by
  cases r with
  | ok a => simp
  | error e => simp [LoadError.Told]

theorem untold_guarded_iff {checks : List (Option LoadError)} {a : α} :
    Untold (guarded checks a) ↔ ∃ front e rest, checks = front ++ some e :: rest ∧
      (∀ check ∈ front, check = none) ∧ ¬ e.Told := by
  simp only [Untold, guarded_eq_error_iff, List.findSome?_eq_some_iff]
  constructor
  · rintro ⟨e, ⟨front, check, rest, rfl, rfl, passed⟩, untold⟩
    exact ⟨front, e, rest, rfl, passed, untold⟩
  · rintro ⟨front, e, rest, rfl, passed, untold⟩
    exact ⟨e, ⟨front, some e, rest, rfl, rfl, passed⟩, untold⟩

namespace Field

variable {f : Field} {d : Yaml.Document} {v : Yaml.Value}

/-- The value is neither taken for the field nor refused: it is an infinity for an integer, or it is
no value of the field and cannot be shown. -/
inductive BreaksOn (f : Field) (d : Yaml.Document) : Yaml.Value → Prop
  | infinite {x : Binary64} (integer : f.kind = .integer) (h : x.isInfinite = true) :
    BreaksOn f d (.real x)
  | unshowable {v : Yaml.Value} (h : d.Unshowable Yaml.Document.maxShown [] v)
    (other : f.kind = .integer → ∀ n, v ≠ .integer n) : BreaksOn f d v

theorem untold_notAnInteger_iff :
    Untold (f.notAnInteger d v) ↔ d.Unshowable Yaml.Document.maxShown [] v := by
  rw [notAnInteger_eq, untold_error_iff, ← Yaml.Document.literal_fails_iff]
  cases d.literal v <;> simp

theorem untold_assignNumber {n : Option Int} (h : Untold (f.assignNumber d v n)) :
    d.Unshowable Yaml.Document.maxShown [] v := by
  rw [assignNumber] at h
  split at h
  · exact absurd h (not_untold_ok _)
  · exact untold_notAnInteger_iff.mp h

theorem assignInteger_isSome (kind : f.kind = .integer) (n : Int) :
    ∃ a, f.assignInteger n = some a := by
  cases f <;> first | exact ⟨_, rfl⟩ | cases kind

theorem breaksOn_iff_unshowable (integer : ∀ n, v ≠ .integer n) (real : ∀ x, v ≠ .real x) :
    f.BreaksOn d v ↔ d.Unshowable Yaml.Document.maxShown [] v := by
  constructor
  · rintro (⟨_, _⟩ | ⟨h, _⟩)
    · exact absurd rfl (real _)
    · exact h
  · exact fun h => .unshowable h fun _ => integer

theorem untold_assignIntegerValue_iff (kind : f.kind = .integer) :
    Untold (f.assignIntegerValue d v) ↔ f.BreaksOn d v := by
  cases v with
  | integer n =>
    obtain ⟨a, given⟩ := assignInteger_isSome kind n
    have taken : f.assignIntegerValue d (.integer n) = .ok a := by
      rw [assignIntegerValue, assignNumber, Option.bind_some, given]
    rw [taken]
    refine iff_of_false (not_untold_ok a) ?_
    rintro (_ | ⟨_, other⟩)
    exact other kind n rfl
  | real x =>
    have showable : ¬ d.Unshowable Yaml.Document.maxShown [] (.real x) :=
      Yaml.Document.not_unshowable (by simp) (by simp)
    rw [assignIntegerValue]
    by_cases infinite : x.isInfinite = true
    · rw [if_pos infinite]
      exact iff_of_true (untold_error_iff.mpr not_told_infiniteInteger) (.infinite kind infinite)
    · rw [if_neg infinite]
      refine iff_of_false (fun untold => showable (untold_assignNumber untold)) ?_
      rintro (⟨_, h⟩ | ⟨h, _⟩)
      · exact infinite h
      · exact showable h
  | text s =>
    rw [breaksOn_iff_unshowable (by simp) (by simp)]
    refine ⟨untold_assignNumber, fun h => absurd h ?_⟩
    exact Yaml.Document.not_unshowable (by simp) (by simp)
  | bytes bs =>
    rw [breaksOn_iff_unshowable (by simp) (by simp)]
    refine ⟨untold_assignNumber, fun h => absurd h ?_⟩
    exact Yaml.Document.not_unshowable (by simp) (by simp)
  | _ => exact untold_notAnInteger_iff.trans (breaksOn_iff_unshowable (by simp) (by simp)).symm

theorem breaksOn_iff_of_ne_integer (kind : f.kind ≠ .integer) :
    f.BreaksOn d v ↔ d.Unshowable Yaml.Document.maxShown [] v := by
  constructor
  · rintro (⟨integer, _⟩ | ⟨h, _⟩)
    · exact absurd integer kind
    · exact h
  · exact fun h => .unshowable h fun integer => absurd integer kind

/-- What is done with a text does not matter, if its errors are told where the value is shown. -/
theorem untold_text_bind_iff {later : LooseText → Except LoadError α}
    (tells : failure? (d.literal v) = none → ∀ text, ¬ Untold (later text)) :
    Untold ((d.text v).mapError LoadError.value >>= later) ↔
      d.Unshowable Yaml.Document.maxShown [] v := by
  rw [untold_bind_iff, ← Yaml.Document.text_fails_iff]
  cases read : d.text v with
  | error e => exact iff_of_true (.inl ⟨_, rfl, not_told_value e⟩) (Option.some_ne_none e)
  | ok text =>
    have shows : failure? (d.literal v) = none := Classical.not_not.mp fun fails => by
      have missing := Yaml.Document.text_fails_iff.mpr (Yaml.Document.literal_fails_iff.mp fails)
      rw [read] at missing
      exact missing rfl
    refine iff_of_false ?_ fun fails => fails rfl
    rintro (untold | ⟨_, _, untold⟩)
    · exact not_untold_ok _ untold
    · exact tells shows _ untold

/-- Every kind of value for every kind of field. -/
theorem untold_assignValue_iff : Untold (f.assignValue d v) ↔ f.BreaksOn d v := by
  unfold assignValue
  split
  · rename_i kind
    rw [breaksOn_iff_of_ne_integer (by simp [kind])]
    split
    · exact iff_of_false (not_untold_ok _) (Yaml.Document.not_unshowable (by simp) (by simp))
    · refine untold_text_bind_iff fun shows text => ?_
      cases readBoolean? text with
      | some b => exact not_untold_ok _
      | none =>
        -- the value is refused and shown, which works where it could be read as a text
        cases literal : d.literal v with
        | error e => rw [literal] at shows; cases shows
        | ok told =>
          rw [shown, literal]
          exact fun untold => untold_error_iff.mp untold (told_settings _)
  · rename_i kind
    rw [breaksOn_iff_of_ne_integer (by simp [kind])]
    exact untold_text_bind_iff fun _ _ => not_untold_ok _
  · rename_i kind
    exact untold_assignIntegerValue_iff kind

end Field

/-! ## Files -/

namespace SettingsFile

variable {w : Workplace} {file : SettingsFile} {path : String}

/-- The entry is neither accepted nor refused: its key names no field and cannot be shown, or its
value is neither taken for the field nor refused. -/
inductive BreaksOn (file : SettingsFile) (entry : Yaml.Value × Yaml.Value) : Prop
  | key (unknown : fieldOf? entry.1 = none)
    (h : file.document.Unshowable Yaml.Document.maxShown [] entry.1)
  | value {f : Field} (named : fieldOf? entry.1 = some f) (h : f.BreaksOn file.document entry.2)

/-- The file at a path breaks loading off.  Its text cannot be read, for another reason than that it
is no YAML; or all entries in front of some entry are accepted, and that one is neither accepted nor
refused. -/
inductive Defective (w : Workplace) (path : String) : Prop
  | text {content : List UInt8} {e : Yaml.Error} (read : w.read path = .ok content)
    (fails : Yaml.read (.ofBytes content) = .error e) (other : e ≠ .malformed)
  | entry {file : SettingsFile} {front rest : List (Yaml.Value × Yaml.Value)}
    {entry : Yaml.Value × Yaml.Value} (parsed : file.Parsed w) (there : file.path = path)
    (split : file.entries = front ++ entry :: rest)
    (before : ∀ entry ∈ front, file.error? entry = none) (h : file.BreaksOn entry)

theorem breaksOn_iff {entry : Yaml.Value × Yaml.Value} :
    file.BreaksOn entry ↔ ∃ e, file.error? entry = some e ∧ ¬ e.Told := by
  rw [error?]
  cases named : fieldOf? entry.1 with
  | some f =>
    simp only [failure?_eq_some_iff]
    rw [← Untold, Field.untold_assignValue_iff]
    constructor
    · rintro (⟨unknown, _⟩ | ⟨same, h⟩)
      · rw [named] at unknown
        cases unknown
      · rw [named] at same
        cases same
        exact h
    · exact .value named
  | none =>
    have shown := Yaml.Document.text_fails_iff (d := file.document) (v := entry.1)
    cases text : file.document.text entry.1 with
    | error e =>
      rw [text] at shown
      exact iff_of_true (.key named (shown.mp (Option.some_ne_none e))) ⟨_, rfl, not_told_value e⟩
    | ok key =>
      rw [text] at shown
      refine iff_of_false ?_ ?_
      · rintro (⟨_, h⟩ | ⟨same, _⟩)
        · exact shown.mpr h rfl
        · rw [named] at same
          cases same
      · rintro ⟨_, ⟨⟩, untold⟩
        exact untold (told_settings _)

theorem defective_of_untold_entries (parsed : file.Parsed w)
    (untold : Untold (file.entries.mapM (readEntry file.path file.document))) :
    Defective w file.path := by
  rw [mapM_readEntry, untold_guarded_iff] at untold
  obtain ⟨_, e, _, checks, passed, untold⟩ := untold
  obtain ⟨front, _, split, rfl, behind⟩ := List.map_eq_append_iff.mp checks
  obtain ⟨entry, rest, rfl, fails, rfl⟩ := List.map_eq_cons_iff.mp behind
  exact .entry parsed rfl split (fun entry member => passed _ (List.mem_map_of_mem member))
    (breaksOn_iff.mpr ⟨e, fails, untold⟩)

theorem untold_readSettingsText {complaint : LooseText} {text : Yaml.Source} {e : Yaml.Error}
    (fails : Yaml.read text = .error e) :
    Untold (readSettingsText path complaint text) ↔ e ≠ .malformed := by
  delta readSettingsText
  rw [fails]
  cases e <;> simp [LoadError.Told]

theorem untold_loadSettingsFile_iff (clean : '\x00' ∉ path.toList) :
    Untold (loadSettingsFile w path) ↔ Defective w path := by
  have valid := Workplace.validPath_iff.mpr clean
  constructor
  · rw [loadSettingsFile, valid, Bool.not_true, if_neg Bool.false_ne_true]
    intro untold
    cases read : w.read path with
    | error cause =>
      rw [read] at untold
      exact absurd (told_settings _) (untold_error_iff.mp untold)
    | ok content =>
      rw [read] at untold
      cases text : Yaml.read (.ofBytes content) with
      | error e => exact .text read text ((untold_readSettingsText text).mp untold)
      | ok d =>
        dsimp only at untold
        rw [readSettingsText_of_ok text, readLayer] at untold
        split at untold
        · exact absurd untold (not_untold_ok _)
        · rename_i node root
          split at untold
          · rename_i entries holds
            have parsed : Parsed w ⟨path, d, entries⟩ :=
              ⟨valid, ⟨content, read, text⟩, .inr ⟨node, root, holds⟩⟩
            exact defective_of_untold_entries parsed untold
          · exact absurd untold (not_untold_ok _)
        · exact absurd (told_settings _) (untold_error_iff.mp untold)
  · rintro (⟨read, fails, other⟩ | ⟨parsed, rfl, split, before, h⟩)
    · rw [loadSettingsFile, valid, Bool.not_true, if_neg Bool.false_ne_true, read]
      exact (untold_readSettingsText fails).mpr other
    · obtain ⟨e, fails, untold⟩ := breaksOn_iff.mp h
      rw [parsed.loadSettingsFile_eq, untold_guarded_iff, split, List.map_append, List.map_cons,
        fails]
      refine ⟨_, e, _, rfl, fun check checked => ?_, untold⟩
      obtain ⟨entry, member, rfl⟩ := List.mem_map.mp checked
      exact before entry member

end SettingsFile

/-! ## Layers -/

namespace Settings

variable {w : Workplace} {sources : SettingsSources} {path : String}

/-- The conditions on settings are told. -/
theorem untold_addLayer_iff {s : Settings} {layer : Except LoadError (List Assignment)} :
    Untold (s.addLayer layer) ↔ Untold layer := by
  rw [addLayer, untold_bind_iff, or_iff_left]
  rintro ⟨assignments, _, untold⟩
  cases layered : s.overlay assignments with
  | ok after =>
    rw [layered] at untold
    exact not_untold_ok _ untold
  | error v =>
    rw [layered] at untold
    exact untold_error_iff.mp untold (told_settings _)

theorem not_untold_foldlM_addLayer {layers : List (Except LoadError (List Assignment))}
    (tells : ∀ layer ∈ layers, ¬ Untold layer) (s : Settings) :
    ¬ Untold (layers.foldlM addLayer s) := by
  induction layers generalizing s with
  | nil => exact not_untold_ok s
  | cons layer layers ih =>
    rw [List.foldlM_cons, untold_bind_iff, untold_addLayer_iff]
    rintro (untold | ⟨after, _, untold⟩)
    · exact tells layer List.mem_cons_self untold
    · exact ih (fun layer member => tells layer (List.mem_cons_of_mem _ member)) after untold

theorem not_untold_layer (environ : Environment) :
    ¬ Untold (environ.layer.mapError LoadError.settings) := by
  cases environ.layer with
  | ok assignments => exact not_untold_ok assignments
  | error e => exact fun untold => untold_error_iff.mp untold (told_settings e)

/-- Of all layers only the file can break loading off. -/
theorem untold_layered_iff (named : sources.path = some path) (clean : '\x00' ∉ path.toList)
    (env : Environment) :
    Untold (layered (sources.layers w env)) ↔ SettingsFile.Defective w path := by
  -- what comes behind the file: the environment, and what was asked for explicitly
  have above : ∀ layer ∈ [(sources.given.getD env).layer.mapError LoadError.settings] ++
      (if sources.overrides.isEmpty then [] else [.ok sources.overrides]), ¬ Untold layer := by
    intro layer member
    rcases List.mem_append.mp member with environ | overrides
    · rw [List.mem_singleton.mp environ]
      exact not_untold_layer _
    · split at overrides
      · cases overrides
      · rw [List.mem_singleton.mp overrides]
        exact not_untold_ok _
  rw [SettingsSources.layers_eq, layered, SettingsSources.fileLayers, named, List.append_assoc]
  by_cases empty : path = ""
  · -- an empty path stands for no file, and no file is found under it
    subst empty
    refine iff_of_false (not_untold_foldlM_addLayer above {}) ?_
    rintro (⟨read, _⟩ | ⟨parsed, there, _⟩)
    · cases read
    · obtain ⟨_, read, _⟩ := parsed.read
      rw [there] at read
      cases read
  · dsimp only
    rw [if_neg (by simpa using empty), List.singleton_append, List.foldlM_cons, untold_bind_iff,
      untold_addLayer_iff, SettingsFile.untold_loadSettingsFile_iff clean, or_iff_left]
    rintro ⟨s, _, untold⟩
    exact not_untold_foldlM_addLayer above s untold

theorem layered_of_file_error {e : LoadError} (named : sources.path = some path)
    (filled : path ≠ "") (fails : loadSettingsFile w path = .error e) (env : Environment) :
    layered (sources.layers w env) = .error e := by
  rw [SettingsSources.layers_eq, layered, SettingsSources.fileLayers, named]
  dsimp only
  rw [if_neg (by simpa using filled), fails]
  rfl

end Settings

/-! ## What the user is told -/

namespace CommandLine

variable {fuel : Nat} {w : Workplace} {process : Environment} {input : List UInt8}
  {arguments : List String} {i : Invocation}

/-- The program is refused its settings: it puts nothing out, tells what is wrong behind the
reports on the variable file, and ends with status 1. -/
structure Outcome.Refused (o : Outcome) (e : SettingsError) : Prop where
  status_eq : o.ending.status? = some 1
  output_eq : o.output = []
  trace_eq : o.trace = []
  errors_eq : o.errors = o.notices ++ s!"Error: {e.message.escaped}\n"

theorem refused_of_settings {e : SettingsError}
    (asked : Request.ofArguments arguments = .ok (.run i))
    (fails : (loadSettings w process i.sources).2 = .error (.settings e)) :
    (commandLine fuel w process input arguments).Refused e := by
  have ran : commandLine fuel w process input arguments =
      ⟨(loadSettings w process i.sources).1, [], [], .complaint (.settings e)⟩ := by
    simp only [commandLine, asked, Invocation.run, fails]
    rfl
  rw [ran]
  exact ⟨rfl, rfl, rfl, rfl⟩

theorem commandLine_of_untold (asked : Request.ofArguments arguments = .ok (.run i))
    (untold : Untold (loadSettings w process i.sources).2) :
    ∃ e, commandLine fuel w process input arguments =
      ⟨(loadSettings w process i.sources).1, [], [], .breakdown (.settings e)⟩ := by
  obtain ⟨e, fails, untold⟩ := untold
  refine ⟨e, ?_⟩
  simp only [commandLine, asked, Invocation.run, fails]
  cases e with
  | settings told => exact absurd (told_settings told) untold
  | _ => rfl

end CommandLine

/-- For every settings file and every environment there are settings or an error of the settings,
unless the file is defective.  The command line with that file then refuses with one message and
status 1, and with a defective file it is broken off. -/
theorem settings_told_iff {w : Workplace} {path : String} (clean : '\x00' ∉ path.toList) :
    (∀ process environ,
      let result := (loadSettings w process ⟨some path, some environ, false, []⟩).2
      ((∃ s, result = .ok s) ∨ ∃ e, result = .error (.settings e)) ↔
        ¬ SettingsFile.Defective w path) ∧
    ∀ fuel process env input arguments (i : CommandLine.Invocation),
      CommandLine.Request.ofArguments arguments = .ok (.run i) → i.config = some path →
      i.sources.surroundings w process = .ok env →
      let result := (loadSettings w process i.sources).2
      let o := commandLine fuel w process input arguments
      (((∃ s, result = .ok s) ∨ ∃ e, result = .error (.settings e) ∧ o.Refused e) ↔
        ¬ SettingsFile.Defective w path) ∧
      (SettingsFile.Defective w path →
        o.ending.status? = none ∧ o.output = [] ∧ o.errors = o.notices) := by
  constructor
  · intro process environ result
    have defective : Untold result ↔ SettingsFile.Defective w path :=
      Settings.untold_layered_iff rfl clean process
    rw [← defective, not_untold_iff]
  · intro fuel process env input arguments i asked config taken result o
    have loads : result = Settings.layered (i.sources.layers w env) :=
      SettingsSources.loadSettings_eq taken
    have defective : Untold result ↔ SettingsFile.Defective w path := by
      rw [loads]
      exact Settings.untold_layered_iff config clean env
    rw [← defective, not_untold_iff]
    constructor
    · refine or_congr_right (exists_congr fun e => ?_)
      exact ⟨And.left, fun fails => ⟨fails, CommandLine.refused_of_settings asked fails⟩⟩
    · intro untold
      obtain ⟨e, broken⟩ : ∃ e, o = ⟨_, [], [], .breakdown (.settings e)⟩ :=
        CommandLine.commandLine_of_untold asked untold
      rw [broken]
      exact ⟨rfl, rfl, rfl⟩

theorem loadSettingsFile_only {content : List UInt8} {e : LoadError}
    (fails : failure? (readSettingsText "c" "malformed" (.ofBytes content)) = some e) :
    loadSettingsFile (.ofEntries [(["c"], .file content)]) "c" = .error e := by
  rw [loadSettingsFile, show Workplace.validPath "c" = true by decide, Workplace.read_only]
  exact failure?_eq_some_iff.mp fails

/-- What is no number is refused as an integer, and an infinity breaks the program off. -/
theorem settings_told_iff_notFinite :
    ∃ (told broken : Workplace) (refusal : SettingsError),
      told.read "c" = .ok (Utf8.bytesOf "max_cells: .nan") ∧
      broken.read "c" = .ok (Utf8.bytesOf "max_cells: .inf") ∧
      refusal = .notAnInteger "max_cells" "nan" ∧
      ¬ SettingsFile.Defective told "c" ∧
      (commandLine 0 told [] [] ["--config", "c"]).Refused refusal ∧
      SettingsFile.Defective broken "c" ∧
      (commandLine 0 broken [] [] ["--config", "c"]).ending.status? = none := by
  let told : Workplace := .ofEntries [(["c"], .file (Utf8.bytesOf "max_cells: .nan"))]
  let broken : Workplace := .ofEntries [(["c"], .file (Utf8.bytesOf "max_cells: .inf"))]
  let i : CommandLine.Invocation := { config := some "c" }
  have asked : CommandLine.Request.ofArguments ["--config", "c"] = .ok (.run i) :=
    eq_ok_of_toOption (by decide +kernel)
  have nan : loadSettingsFile told "c" = .error (.settings (.notAnInteger "max_cells" "nan")) :=
    loadSettingsFile_only (by decide +kernel)
  have infinity : loadSettingsFile broken "c" = .error .infiniteInteger :=
    loadSettingsFile_only (by decide +kernel)
  have surroundings : ∀ w ∈ [told, broken], i.sources.surroundings w [] = .ok [] := by
    have decided : ∀ w ∈ [told, broken], (i.sources.surroundings w []).toOption = some [] := by
      decide +kernel
    exact fun w member => eq_ok_of_toOption (decided w member)
  have loads {w : Workplace} {e : LoadError} (fails : loadSettingsFile w "c" = .error e) :
      (loadSettings w [] ⟨some "c", some [], false, []⟩).2 = .error e :=
    (SettingsSources.loadSettings_eq rfl).trans
      (Settings.layered_of_file_error rfl (by decide) fails [])
  obtain ⟨given, runs⟩ := @settings_told_iff told "c" (by decide)
  obtain ⟨given', runs'⟩ := @settings_told_iff broken "c" (by decide)
  have sound : ¬ SettingsFile.Defective told "c" := (given [] []).mp (.inr ⟨_, loads nan⟩)
  have defective : SettingsFile.Defective broken "c" := Classical.not_not.mp fun sound => by
    rcases (given' [] []).mpr sound with ⟨s, made⟩ | ⟨e, fails⟩
    · rw [loads infinity] at made
      cases made
    · rw [loads infinity] at fails
      cases fails
  refine ⟨told, broken, _, Workplace.read_only _, Workplace.read_only _, rfl, sound, ?_, defective,
    ((runs' 0 [] [] [] _ i asked rfl (surroundings broken (by simp))).2 defective).1⟩
  have taken := surroundings told (by simp)
  have fails := (SettingsSources.loadSettings_eq taken).trans
    (Settings.layered_of_file_error rfl (by decide) nan [])
  rcases (runs 0 [] [] [] _ i asked rfl taken).1.mpr sound with ⟨s, made⟩ | ⟨e, same, refused⟩
  · rw [fails] at made
    cases made
  · rw [fails] at same
    cases same
    exact refused

/-- An infinity for an integer breaks loading off. -/
theorem loadSettings_infinity :
    (loadSettings (.ofEntries [(["c"], .file (Utf8.bytesOf "max_cells: .inf\n"))]) []
      ⟨some "c", some [], false, []⟩).2 = .error .infiniteInteger :=
  (SettingsSources.loadSettings_eq rfl).trans
    (Settings.layered_of_file_error rfl (by decide) (loadSettingsFile_only (by decide +kernel)) [])

end Brainfuck
