import Brainfuck.Program
import Brainfuck.Text.Blank

/-! # Words and the programs in them

A line falls into words, and blanks are comments to a program, so taking a source apart into words
and putting these together again leaves the same program.

* `words_append_blank` — the first word of a line, when what stands in front of a blank has none;
* `flatten_words` — the words of a text are its characters but for the blanks;
* `words_map` — the words of a text in another alphabet are its words, in that alphabet;
* `Program.ofChars_intercalate_words` — a program is the same in the words of its source;
* `Program.size_ofLoose` — the number of instructions is the number of command characters.

The words are read from the left with the finished ones put aside, so everything about `words` comes
from what a fold of `wordStep` does to any state (`foldl_wordStep`), not only to the first one.
-/

namespace Brainfuck

namespace Text

variable {α β : Type} {blank : α → Bool} {x : α} {xs word : List α}

/-! ## Reading on from any state -/

theorem wordStep_of_visible (visible : blank x = false) (done : List (List α))
    (current : List α) : wordStep blank (done, current) x = (done, x :: current) := by
  simp [wordStep, visible]

theorem wordStep_of_blank (empty : blank x = true) (done : List (List α)) (current : List α) :
    wordStep blank (done, current) x =
      (if current.isEmpty then done else current.reverse :: done, []) := by
  cases current <;> simp [wordStep, empty]

theorem words_eq (blank : α → Bool) (xs : List α) :
    words blank xs =
      (if (xs.foldl (wordStep blank) ([], [])).2.isEmpty then
          (xs.foldl (wordStep blank) ([], [])).1
        else (xs.foldl (wordStep blank) ([], [])).2.reverse ::
          (xs.foldl (wordStep blank) ([], [])).1).reverse :=
  rfl

/-- The finished words are never looked at again. -/
theorem foldl_wordStep (done : List (List α)) (current xs : List α) :
    xs.foldl (wordStep blank) (done, current) =
      ((xs.foldl (wordStep blank) ([], current)).1 ++ done,
        (xs.foldl (wordStep blank) ([], current)).2) := by
  induction xs generalizing done current with
  | nil => rfl
  | cons x xs ih =>
    rw [List.foldl_cons, List.foldl_cons]
    cases empty : blank x with
    | false =>
      rw [wordStep_of_visible empty, wordStep_of_visible empty]
      exact ih done (x :: current)
    | true =>
      -- a word that is finished here comes in front of those that were there
      rw [wordStep_of_blank empty, wordStep_of_blank empty, ih,
        ih (if current.isEmpty then [] else [current.reverse]) []]
      cases current <;> simp

theorem foldl_wordStep_visible (visible : ∀ x ∈ xs, blank x = false)
    (done : List (List α)) (current : List α) :
    xs.foldl (wordStep blank) (done, current) = (done, xs.reverse ++ current) := by
  induction xs generalizing current with
  | nil => rfl
  | cons x xs ih =>
    have rest : ∀ x ∈ xs, blank x = false :=
      fun x member => visible x (List.mem_cons_of_mem _ member)
    rw [List.foldl_cons, wordStep_of_visible (visible x List.mem_cons_self), ih rest]
    simp

/-- A step in another alphabet, whose blanks are those of this one. -/
theorem foldl_wordStep_map (blank : α → Bool) (f : β → α) (done : List (List β))
    (current ys : List β) :
    (ys.map f).foldl (wordStep blank) (done.map (List.map f), current.map f) =
      Prod.map (List.map (List.map f)) (List.map f)
        (ys.foldl (wordStep (blank ∘ f)) (done, current)) := by
  induction ys generalizing done current with
  | nil => rfl
  | cons y ys ih =>
    rw [List.map_cons, List.foldl_cons, List.foldl_cons]
    cases empty : blank (f y) with
    | false =>
      have empty' : (blank ∘ f) y = false := empty
      rw [wordStep_of_visible empty, wordStep_of_visible empty']
      exact ih done (y :: current)
    | true =>
      have empty' : (blank ∘ f) y = true := empty
      rw [wordStep_of_blank empty, wordStep_of_blank empty', ← ih]
      cases current <;> simp

/-! ## The words of a line -/

theorem visible_of_all (visible : xs.all (!blank ·) = true) : ∀ x ∈ xs, blank x = false := by
  simpa using visible

/-- A text with no blank in it is one word. -/
theorem words_of_visible (visible : ∀ x ∈ word, blank x = false) (nonempty : word ≠ []) :
    words blank word = [word] := by
  rw [words_eq, foldl_wordStep_visible visible]
  simp [nonempty]

/-- What stands in front of the first blank is the first word. -/
theorem words_append_blank (visible : ∀ x ∈ word, blank x = false) (nonempty : word ≠ [])
    (empty : blank x = true) (rest : List α) :
    words blank (word ++ x :: rest) = word :: words blank rest := by
  have first : (word ++ x :: rest).foldl (wordStep blank) ([], []) =
      rest.foldl (wordStep blank) ([word], []) := by
    rw [List.foldl_append, foldl_wordStep_visible visible, List.foldl_cons]
    simp [wordStep, empty, nonempty]
  rw [words_eq, first, foldl_wordStep [word] []]
  rw [words_eq blank rest]
  split <;> simp

/-- Taking a text apart and writing it in another alphabet can change places. -/
theorem words_map (f : β → α) (ys : List β) :
    words blank (ys.map f) = (words (blank ∘ f) ys).map (List.map f) := by
  have read := foldl_wordStep_map blank f [] [] ys
  rw [List.map_nil, List.map_nil] at read
  rw [words_eq, words_eq, read]
  cases last : (ys.foldl (wordStep (blank ∘ f)) ([], [])).2 <;> simp [last, List.map_reverse]

/-- The characters of what is read from a state on, behind those of the current word. -/
theorem flatten_foldl_wordStep (blank : α → Bool) (current xs : List α) :
    (xs.foldl (wordStep blank) ([], current)).1.reverse.flatten ++
        (xs.foldl (wordStep blank) ([], current)).2.reverse =
      current.reverse ++ xs.filter (!blank ·) := by
  induction xs generalizing current with
  | nil => simp
  | cons x xs ih =>
    rw [List.foldl_cons]
    cases empty : blank x with
    | false =>
      rw [wordStep_of_visible empty, ih (x :: current)]
      simp [empty]
    | true =>
      have rest := ih []
      rw [wordStep_of_blank empty, foldl_wordStep]
      cases current with
      | nil => simpa [empty] using rest
      | cons d current => simp [empty, rest]

/-- Nothing but the blanks is lost, and nothing changes its place. -/
theorem flatten_words (blank : α → Bool) (xs : List α) :
    (words blank xs).flatten = xs.filter (!blank ·) := by
  have whole := flatten_foldl_wordStep blank [] xs
  rw [words_eq]
  split
  · rename_i empty
    rw [List.isEmpty_iff.mp empty] at whole
    simpa using whole
  · simpa using whole

theorem mem_flatten_words (member : x ∈ xs) (visible : blank x = false) :
    x ∈ (words blank xs).flatten := by
  rw [flatten_words]
  exact List.mem_filter.mpr ⟨member, by simp [visible]⟩

theorem words_ne_nil (visible : ∃ x ∈ xs, blank x = false) : words blank xs ≠ [] := by
  obtain ⟨x, member, seen⟩ := visible
  intro none
  have kept := mem_flatten_words member seen
  rw [none] at kept
  cases kept

theorem intercalate_words_ne_nil (space : α) (visible : ∃ x ∈ xs, blank x = false) :
    [space].intercalate (words blank xs) ≠ [] := by
  obtain ⟨x, member, seen⟩ := visible
  have kept := mem_flatten_words member seen
  match split : words blank xs with
  | [] =>
    rw [split] at kept
    cases kept
  | [word] =>
    rw [split] at kept
    rw [List.intercalate_singleton]
    rintro rfl
    simp at kept
  | word :: next :: rest => simp [List.intercalate_cons_cons]

end Text

namespace LooseText

/-- The words of characters are words of characters. -/
theorem words_ofChars (cs : List Char) :
    (ofChars cs).words = (Text.words Text.isBlank cs).map ofChars := by
  have same : CodePoint.isBlank ∘ CodePoint.char = Text.isBlank := rfl
  rw [words, ofChars, Text.words_map, same, List.map_map]
  rfl

theorem spaced_map_ofChars (words : List (List Char)) :
    spaced (words.map ofChars) = ofChars ([' '].intercalate words) := by
  refine congrArg mk ?_
  induction words with
  | nil => rfl
  | cons word words ih =>
    cases words with
    | nil => simp [ofChars]
    | cons next words =>
      rw [List.map_cons, List.map_cons, List.map_cons, List.map_cons, List.intercalate_cons_cons,
        List.intercalate_cons_cons, List.map_append, List.map_append, ← ih]
      rfl

end LooseText

namespace Program

open Instruction (ofChar?)

/-! ## Blanks are comments -/

theorem ofChar?_of_isBlank {c : Char} (blank : Text.isBlank c = true) : ofChar? c = none := by
  cases read : ofChar? c with
  | none => rfl
  | some i =>
    rw [Instruction.eq_symbol_of_ofChar? read] at blank
    cases i <;> exact absurd blank (by decide)

theorem ofChars_filter (cs : List Char) : ofChars (cs.filter (!Text.isBlank ·)) = ofChars cs := by
  rw [ofChars, ofChars, List.filterMap_filter]
  congr 2
  funext c
  by_cases blank : Text.isBlank c
  · simp [blank, ofChar?_of_isBlank blank]
  · simp [blank]

/-- A program is the same in the words of its source. -/
theorem ofChars_intercalate_words (cs : List Char) :
    ofChars ([' '].intercalate (Text.words Text.isBlank cs)) = ofChars cs := by
  have spaces : ∀ ws : List (List Char), ofChars ([' '].intercalate ws) = ofChars ws.flatten := by
    intro ws
    induction ws with
    | nil => rfl
    | cons word ws ih =>
      cases ws with
      | nil => simp
      | cons next ws =>
        rw [List.intercalate_cons_cons, ofChars_append, ofChars_append, ih]
        rw [List.flatten_cons (l := word), ofChars_append]
        simp [ofChars, ofChar?]
  rw [spaces, Text.flatten_words, ofChars_filter]

/-! ## Counting instructions -/

/-- The characters that are commands. -/
def commandChars : List Char := ['>', '<', '+', '-', '.', ',', '[', ']']

theorem isSome_ofChar? (c : Char) : (ofChar? c).isSome = decide (c ∈ commandChars) := by
  cases read : ofChar? c with
  | some i =>
    rw [Instruction.eq_symbol_of_ofChar? read]
    cases i <;> rfl
  | none =>
    have reads : ∀ d ∈ commandChars, (ofChar? d).isSome :=
      List.all_eq_true.mp (by decide)
    have other : c ∉ commandChars := by
      intro member
      have some_read := reads c member
      rw [read] at some_read
      cases some_read
    simp [other]

/-- A program has one instruction for each command character of its source. -/
theorem size_ofLoose (source : LooseText) :
    (ofLoose source).size = source.points.countP (· ∈ commandChars.map .char) := by
  rw [ofLoose, ofChars, List.size_toArray, List.length_filterMap_eq_countP, List.countP_filterMap]
  congr 1
  funext p
  cases p with
  | char c => simp [CodePoint.char?, isSome_ofChar?]
  | half n => simp [CodePoint.char?]

end Program

end Brainfuck
