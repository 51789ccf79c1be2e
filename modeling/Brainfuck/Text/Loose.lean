import Brainfuck.Text.Blank

/-! # Texts with lone surrogates

An escape can name any code point, also one half of a surrogate pair, which is no character, and so
can a name that is no UTF-8.  A loose text may hold such halves; it cannot be written as UTF-8 while
it has one.  A string stands for a loose text wherever one is asked for.

* `CodePoint` — a character or half of a surrogate pair;
* `LooseText` — a sequence of code points;
* `LooseText.words` — the parts of a text between blanks;
* `LooseText.chars?`, `LooseText.toString?` — the text, if it has characters only;
* `LooseText.escaped` — the text with its halves written as escapes.
-/

namespace Brainfuck

/-- A number in lower-case hexadecimal with at least `width` digits. -/
def Text.hex (width n : Nat) : List Char :=
  let digits := Nat.toDigits 16 n
  List.replicate (width - digits.length) '0' ++ digits

/-- A code point: a character, or half of a surrogate pair by its distance from U+D800. -/
inductive CodePoint where
  | char (c : Char)
  | half (n : Fin 0x800)
  deriving DecidableEq, Repr

namespace CodePoint

/-- The code point of a number below 0x110000. -/
def ofNat (n : Nat) : CodePoint :=
  if h : 0xD800 ≤ n ∧ n < 0xE000 then half ⟨n - 0xD800, by omega⟩ else char (Char.ofNat n)

def toNat : CodePoint → Nat
  | char c => c.toNat
  | half n => 0xD800 + n

/-- The character that a code point is. -/
def char? : CodePoint → Option Char
  | char c => some c
  | half _ => none

def isBlank : CodePoint → Bool
  | char c => Text.isBlank c
  | half _ => false

end CodePoint

/-- A text in which halves of surrogate pairs may stand alone. -/
structure LooseText where
  points : List CodePoint
  deriving DecidableEq, Repr

namespace LooseText

def ofChars (cs : List Char) : LooseText :=
  ⟨cs.map .char⟩

def ofString (s : String) : LooseText :=
  ofChars s.toList

instance : Coe String LooseText :=
  ⟨ofString⟩

instance : Append LooseText where
  append s t := ⟨s.points ++ t.points⟩

def length (t : LooseText) : Nat :=
  t.points.length

def isEmpty (t : LooseText) : Bool :=
  t.points.isEmpty

def take (n : Nat) (t : LooseText) : LooseText :=
  ⟨t.points.take n⟩

/-- The words of a text: its longest parts without a blank. -/
def words (t : LooseText) : List LooseText :=
  (Text.words CodePoint.isBlank t.points).map mk

/-- Words with one space between them. -/
def spaced (words : List LooseText) : LooseText :=
  ⟨[.char ' '].intercalate (words.map points)⟩

/-- The characters of a text that has nothing else. -/
def chars? (t : LooseText) : Option (List Char) :=
  t.points.mapM CodePoint.char?

/-- The string of a text that has characters only. -/
def toString? (t : LooseText) : Option String :=
  t.chars?.map String.ofList

/-- The escape of half of a surrogate pair. -/
def halfEscape (n : Fin 0x800) : List Char :=
  '\\' :: 'u' :: Text.hex 4 (0xD800 + n)

/-- The text with an escape for each half of a surrogate pair. -/
def escaped (t : LooseText) : String :=
  String.ofList (t.points.flatMap fun
    | .char c => [c]
    | .half n => halfEscape n)

/-! ## Texts of characters -/

theorem ofChars_inj {cs ds : List Char} : ofChars cs = ofChars ds ↔ cs = ds := by
  simp only [ofChars, LooseText.mk.injEq]
  exact List.map_inj_right fun _ _ => CodePoint.char.inj

@[simp] theorem ofString_inj {s t : String} : ofString s = ofString t ↔ s = t :=
  ofChars_inj.trans String.toList_inj

@[simp] theorem ofString_append (s t : String) : ofString s ++ ofString t = ofString (s ++ t) := by
  simp only [ofString, ofChars, String.toList_append, List.map_append]
  rfl

theorem chars?_ofChars (cs : List Char) : (ofChars cs).chars? = some cs := by
  induction cs with
  | nil => rfl
  | cons c cs ih =>
    simp only [chars?, ofChars] at ih
    simp [chars?, ofChars, CodePoint.char?, ih]

/-- A text has characters only if it is the text of these. -/
theorem chars?_eq_some_iff {t : LooseText} {cs : List Char} :
    t.chars? = some cs ↔ t = ofChars cs := by
  constructor
  · obtain ⟨points⟩ := t
    intro read
    induction points generalizing cs with
    | nil =>
      cases read
      rfl
    | cons p points ih =>
      cases p with
      | half n => simp [chars?, CodePoint.char?] at read
      | char c =>
        simp only [chars?, List.mapM_cons, CodePoint.char?, Option.pure_def, Option.bind_eq_bind,
          Option.bind_some, Option.bind_eq_some_iff, Option.some.injEq] at read
        obtain ⟨rest, found, rfl⟩ := read
        have behind := LooseText.mk.inj (ih found)
        rw [behind]
        rfl
  · rintro rfl
    exact chars?_ofChars cs

theorem toString?_eq_some_iff {t : LooseText} {s : String} :
    t.toString? = some s ↔ t = ofString s := by
  rw [toString?, Option.map_eq_some_iff]
  constructor
  · rintro ⟨cs, read, rfl⟩
    rw [chars?_eq_some_iff.mp read, ofString, String.toList_ofList]
  · rintro rfl
    exact ⟨s.toList, chars?_ofChars _, String.ofList_toList⟩

@[simp] theorem isEmpty_iff {t : LooseText} : t.isEmpty = true ↔ t = "" := by
  obtain ⟨points⟩ := t
  simp only [isEmpty, List.isEmpty_iff, ofString, ofChars, LooseText.mk.injEq]
  rfl

@[simp] theorem isEmpty_eq_false_iff {t : LooseText} : t.isEmpty = false ↔ t ≠ "" := by
  rw [ne_eq, ← isEmpty_iff, Bool.not_eq_true]

@[simp] theorem length_ofString (s : String) : (ofString s).length = s.length := by
  simp [length, ofString, ofChars, String.length_toList]

end LooseText

end Brainfuck
