import Brainfuck.Number.Numeral
import Mathlib.Data.List.TakeWhile

/-! # Numerals that are read back

An integer is read back from its text, with blanks around it or without.

* `dropWhile_around` — what is stripped off at both ends of a text;
* `readDigits_eq` — the digits that are read from a text of nothing else;
* `write?_eq_some_iff`, `write?_eq_none_iff` — the integers that have a text, and the others;
* `read?_around` — an integer is read from its text.

The reader goes through a text once and keeps the digits behind it in reverse, so the induction is
on the text with any digits behind it.  The value of the digits is that of a number's own ones.
-/

namespace Brainfuck

variable {front word behind : List Char}

/-- Of a text between characters of a kind the ends are dropped, and no more. -/
theorem dropWhile_around {p : Char → Bool} (outer : ∀ c ∈ front ++ behind, p c = true)
    (inner : ∀ c ∈ word, p c = false) :
    (((front ++ word ++ behind).dropWhile p).reverse.dropWhile p).reverse = word := by
  have before : ∀ c ∈ front, p c = true := fun c member => outer c (List.mem_append_left _ member)
  have after : ∀ c ∈ behind, p c = true := fun c member => outer c (List.mem_append_right _ member)
  have stays : ∀ cs : List Char, (∀ c ∈ cs, p c = false) → cs.dropWhile p = cs := by
    intro cs kept
    cases cs with
    | nil => rfl
    | cons c cs => simp [kept c List.mem_cons_self]
  rw [List.append_assoc, List.dropWhile_append_of_pos before]
  cases word with
  | nil =>
    -- without a word the first run goes on to the end
    have all : behind.dropWhile p = [] := List.dropWhile_eq_nil_iff.mpr after
    simp [all]
  | cons c word =>
    have first : p c = false := inner c List.mem_cons_self
    rw [List.cons_append, List.dropWhile_cons_of_neg (by simp [first]), ← List.cons_append,
      List.reverse_append,
      List.dropWhile_append_of_pos fun d member => after d (List.mem_reverse.mp member),
      stays _ fun d member => inner d (List.mem_reverse.mp member), List.reverse_reverse]

namespace Numeral

variable {cs : List Char} {n : Int}

/-! ## Digits -/

theorem digitValue?_of_isDigit {c : Char} (digit : c.isDigit = true) :
    Text.digitValue? c = some (c.toNat - '0'.toNat) := by
  have range : 0x30 ≤ c.toNat ∧ c.toNat < 0x30 + 10 := by
    have bounds := Char.isDigit_iff_toNat.mp digit
    simp only [Char.reduceToNat] at bounds
    omega
  -- these digits are the first script of all
  have found : Text.digitZeros.find? (fun first => first ≤ c.toNat && c.toNat < first + 10) =
      some 0x30 := by
    rw [Text.digitZeros, List.find?_cons_of_pos (by simp [range])]
  rw [Text.digitValue?, found]
  rfl

theorem ne_underscore_of_isDigit {c : Char} (digit : c.isDigit = true) : c ≠ '_' := by
  rintro rfl
  exact absurd digit (by decide)

theorem readDigits_eq (digits : ∀ c ∈ cs, c.isDigit = true) (done : List Nat) :
    readDigits true done cs =
      some (done.reverse ++ cs.map fun c => c.toNat - '0'.toNat) := by
  induction cs generalizing done with
  | nil => simp [readDigits]
  | cons c cs ih =>
    have digit : c.isDigit = true := digits c List.mem_cons_self
    have other := ne_underscore_of_isDigit digit
    simp [readDigits, other, digitValue?_of_isDigit digit,
      ih (fun d member => digits d (List.mem_cons_of_mem c member))]

theorem digits?_eq (digits : ∀ c ∈ cs, c.isDigit = true) (nonempty : cs ≠ []) :
    digits? cs = some (cs.map fun c => c.toNat - '0'.toNat) := by
  cases cs with
  | nil => exact absurd rfl nonempty
  | cons c cs =>
    have digit : c.isDigit = true := digits c List.mem_cons_self
    have other := ne_underscore_of_isDigit digit
    have rest := readDigits_eq (fun d member => digits d (List.mem_cons_of_mem c member))
      [c.toNat - '0'.toNat]
    simpa [digits?, readDigits, other, digitValue?_of_isDigit digit] using rest

theorem ofDigits_eq (cs : List Char) :
    ofDigits (cs.map fun c => c.toNat - '0'.toNat) = Nat.ofDigitChars 10 cs 0 := by
  rw [ofDigits, List.foldl_map, Nat.ofDigitChars_eq_foldl]
  simp only [Nat.mul_comm]

/-! ## Whole numerals -/

theorem readNat?_toDigits {m : Nat} (short : (Nat.toDigits 10 m).length ≤ maxDigits) :
    readNat? (Nat.toDigits 10 m) = some m := by
  have digits : ∀ c ∈ Nat.toDigits 10 m, c.isDigit = true := fun c member =>
    Nat.isDigit_of_mem_toDigits (by decide) (by decide) member
  rw [readNat?, digits?_eq digits Nat.toDigits_ne_nil, Option.bind_eq_bind, Option.bind_some,
    List.length_map, if_pos short, ofDigits_eq, Nat.ofDigitChars_ten_toDigits]

theorem toList_toString (n : Int) :
    (toString n).toList = (if n < 0 then ['-'] else []) ++ Nat.toDigits 10 n.natAbs := by
  cases n with
  | ofNat m =>
    show m.repr.toList = _
    rw [Nat.toList_repr, if_neg (by simp)]
    rfl
  | negSucc m =>
    show ("-" ++ (m + 1).repr).toList = _
    rw [String.toList_append, Nat.toList_repr, if_pos (Int.negSucc_lt_zero m)]
    rfl

theorem length_toDigits_le_iff {m k : Nat} (positive : 0 < k) :
    (Nat.toDigits 10 m).length ≤ k ↔ m < tenPow k :=
  Nat.length_toDigits_le_iff (by decide) positive

/-- Too many digits are not written at all. -/
theorem write?_eq_none_iff : write? n = none ↔ tenPow maxDigits ≤ n.natAbs := by
  unfold write?
  split
  · rename_i short
    exact iff_of_false (by simp) (Nat.not_le.mpr short)
  · rename_i long
    exact iff_of_true rfl (Nat.le_of_not_lt long)

theorem write?_eq_some_iff {text : String} :
    write? n = some text ↔
      (Nat.toDigits 10 n.natAbs).length ≤ maxDigits ∧ text = toString n := by
  rw [length_toDigits_le_iff (by decide)]
  unfold write?
  split
  · rename_i short
    exact ⟨fun same => ⟨short, (Option.some.inj same).symm⟩, fun same => by rw [same.2]⟩
  · rename_i long
    exact iff_of_false (by simp) fun same => long same.1

theorem readSigned?_toString (short : (Nat.toDigits 10 n.natAbs).length ≤ maxDigits) :
    readSigned? (toString n).toList = some n := by
  rw [toList_toString]
  by_cases negative : n < 0
  · have sign : -((n.natAbs : Nat) : Int) = n := by omega
    rw [if_pos negative]
    show (readNat? (Nat.toDigits 10 n.natAbs)).map (fun m => -(m : Int)) = some n
    rw [readNat?_toDigits short]
    exact congrArg some sign
  · have sign : ((n.natAbs : Nat) : Int) = n := by omega
    rw [if_neg negative, List.nil_append]
    -- the first character is a digit, so no sign is read
    have plain : ∀ c ∈ (Nat.toDigits 10 n.natAbs).head?, c ≠ '-' ∧ c ≠ '+' := by
      intro c first
      have digit : c.isDigit = true :=
        Nat.isDigit_of_mem_toDigits (by decide) (by decide) (List.mem_of_mem_head? first)
      constructor <;> rintro rfl <;> exact absurd digit (by decide)
    have unsigned : readSigned? (Nat.toDigits 10 n.natAbs) =
        (readNat? (Nat.toDigits 10 n.natAbs)).map fun m => (m : Int) := by
      unfold readSigned?
      split
      · rename_i start
        exact absurd rfl (plain '-' (by rw [start]; rfl)).1
      · rename_i start
        exact absurd rfl (plain '+' (by rw [start]; rfl)).2
      · rfl
    rw [unsigned, readNat?_toDigits short]
    exact congrArg some sign

theorem isMargin_eq_false {c : Char} (inside : c ∈ (toString n).toList) : isMargin c = false := by
  rw [toList_toString, List.mem_append] at inside
  rcases inside with sign | digit
  · have minus : c = '-' := by
      split at sign
      · simpa using sign
      · cases sign
    subst minus
    decide
  · have digit := Nat.isDigit_of_mem_toDigits (by decide) (by decide) digit
    have bounds := Char.isDigit_iff_toNat.mp digit
    simp only [Char.reduceToNat] at bounds
    have other : c ≠ ' ' := by
      rintro rfl
      exact absurd digit (by decide)
    have ascii : c.toNat < 0x80 := by omega
    have behind : ¬ c.toNat ≤ 0x0D := by omega
    simp [isMargin, ascii, behind, other]

/-- An integer is read back from the text that it is written as, between characters that may stand
around a numeral. -/
theorem read?_around {text : String} (written : write? n = some text)
    (margin : ∀ c ∈ front ++ behind, isMargin c = true) :
    read? (front ++ text.toList ++ behind) = some n := by
  obtain ⟨short, rfl⟩ := write?_eq_some_iff.mp written
  have stripped : strip (front ++ (toString n).toList ++ behind) = (toString n).toList :=
    dropWhile_around margin fun c inside => isMargin_eq_false inside
  rw [read?, stripped, readSigned?_toString short]

end Numeral

end Brainfuck
